import Dmerge.Foundation.Run
import Dmerge.Kernel.Syscalls

/-!
# One machine

The module of one machine serves any number of handles.  A command borrows its
handler mutably, so a handle runs one command at a time, but the commands of
different handles interleave call by call.  A handle that is open and idle may
be closed.
-/

namespace Dmerge
namespace Kernel

open Foundation Memory Descriptors Producer

variable {Regs Rdma : Type} {bufSize : Nat}

/-!
## The state of the module
-/

/-- The fields of `CallerData` that the commands use. -/
structure DmergeSyscallHandler (Regs Rdma : Type) where
  privateHeapHint : Option UInt64
  publicHeaps : List (HeapDataStruct Regs Rdma)

def DmergeSyscallHandler.default : DmergeSyscallHandler Regs Rdma :=
  { privateHeapHint := none, publicHeaps := [] }

structure ModuleState (Regs Rdma : Type) (bufSize : Nat) where
  service : ShadowHeapService Regs Rdma
  idGen : IdFactory
  pool : Pool bufSize
  handlers : Nat -> Option (DmergeSyscallHandler Regs Rdma)

/-- What a registration captures, and the buffer it is given. -/
structure Registration (Regs Rdma : Type) where
  heapStartAddr : Nat
  task : Producer.Task Regs
  rdmaMeta : Rdma
  buf : UInt64

namespace Registration

def heap (r : Registration Regs Rdma) : ShadowHeap Regs Rdma :=
  ShadowHeap.new r.task r.rdmaMeta { startVirtAddr := r.heapStartAddr }

def bundler (lib : KernelLib Regs Rdma) (r : Registration Regs Rdma) :
    HeapBundler Regs Rdma where
  heap := r.heap
  serializedBuf := r.buf
  serializedBufLen := r.heap.descriptor.serializationBufLen lib

end Registration

inductive Event (Regs Rdma : Type) where
  | opened (self : Nat)
  | started (self : Nat) (req : Request)
  | issued (self : Nat) (key : UInt64)
  | registered (self : Nat) (key : UInt64) (reg : Registration Regs Rdma)
  | adopted (self : Nat) (key : UInt64)
  | unregistered (self : Nat) (key : UInt64)
  | finished (self : Nat) (req : Request) (result : Int)
  | closed (self : Nat)

/-- What the rest of the kernel contributes to a step: the answers of the
library, the calling process as it is then, and the buffer that the pool hands
out. -/
structure Surroundings (Regs Rdma : Type) where
  answer : (o : KernelOp Regs Rdma) -> o.Res
  task : Producer.Task Regs
  buf : UInt64

namespace ModuleState

def init (pool : Pool bufSize) : ModuleState Regs Rdma bufSize where
  service := ShadowHeapService.empty
  idGen := IdFactory.create
  pool := pool
  handlers _ := none

def hintOf (s : ModuleState Regs Rdma bufSize) (self : Nat) : Option UInt64 :=
  (s.handlers self).bind DmergeSyscallHandler.privateHeapHint

/-- The bundle under a key. -/
def bundle (s : ModuleState Regs Rdma bufSize) (key : UInt64) :
    Option (HeapBundler Regs Rdma) :=
  s.service.registeredHeap.lookup key

def setHandler (s : ModuleState Regs Rdma bufSize) (self : Nat)
    (handler : Option (DmergeSyscallHandler Regs Rdma)) :
    ModuleState Regs Rdma bufSize :=
  { s with handlers := Function.update s.handlers self handler }

def updateHandler (s : ModuleState Regs Rdma bufSize) (self : Nat)
    (f : DmergeSyscallHandler Regs Rdma -> DmergeSyscallHandler Regs Rdma) :
    ModuleState Regs Rdma bufSize :=
  s.setHandler self ((s.handlers self).map f)

/-- `register_heap` with the RDMA metadata already taken: capture, serialize
into the buffer, insert. -/
def register (lib : KernelLib Regs Rdma) (s : ModuleState Regs Rdma bufSize)
    (key : UInt64) (reg : Registration Regs Rdma) : ModuleState Regs Rdma bufSize :=
  let (bundler, pool) := HeapBundler.new lib s.pool reg.heap reg.buf
  { s with service := s.service.addBundler key bundler, pool := pool }

def Free (s : ModuleState Regs Rdma bufSize) (buf : UInt64) : Prop :=
  forall key, key ∈ s.service.registeredHeap.keys ->
    (s.service.queryDescriptorBuf key).map Prod.fst ≠ some buf

instance (s : ModuleState Regs Rdma bufSize) (buf : UInt64) : Decidable (s.Free buf) :=
  Finset.decidableDforallFinset

end ModuleState

/-!
## Answering a call

The calls on the handle and on the registry are answered by the module itself,
and the others by the surroundings.
-/

def KernelOp.External : KernelOp Regs Rdma -> Prop
  | .getPrivateHint | .setPrivateHint _ | .pushPublicHeap _ | .allocOneId
  | .addBundler _ _ _ | .queryDescriptorBuf _ | .unregister _ => False
  | _ => True

def serve (lib : KernelLib Regs Rdma) (self : Nat) (env : Surroundings Regs Rdma)
    (s : ModuleState Regs Rdma bufSize) :
    (o : KernelOp Regs Rdma) -> o.Res × ModuleState Regs Rdma bufSize × List (Event Regs Rdma)
  | .getPrivateHint => (s.hintOf self, s, [])
  | .setPrivateHint hint =>
      ((), s.updateHandler self fun h => { h with privateHeapHint := some hint },
        [.adopted self hint])
  | .pushPublicHeap heap =>
      ((), s.updateHandler self fun h => { h with publicHeaps := h.publicHeaps ++ [heap] }, [])
  | .allocOneId =>
      match s.idGen.allocOneId with
      | none => (none, s, [])
      | some (id, idGen) => (some id, { s with idGen := idGen }, [.issued self id])
  | .addBundler key heapStart rdmaMeta =>
      let reg : Registration Regs Rdma :=
        { heapStartAddr := heapStart, task := env.task, rdmaMeta := rdmaMeta, buf := env.buf }
      ((), s.register lib key reg, [.registered self key reg])
  | .queryDescriptorBuf key => (s.service.queryDescriptorBuf key, s, [])
  | .unregister key =>
      ((), { s with service := s.service.unregister key }, [.unregistered self key])
  | o => (env.answer o, s, [])

def Admits (s : ModuleState Regs Rdma bufSize) (env : Surroundings Regs Rdma) :
    KernelOp Regs Rdma -> Prop
  | .addBundler _ _ _ => s.Free env.buf
  | _ => True

instance (s : ModuleState Regs Rdma bufSize) (env : Surroundings Regs Rdma)
    (o : KernelOp Regs Rdma) : Decidable (Admits s env o) := by
  cases o <;> unfold Admits <;> infer_instance

def serveLogged (lib : KernelLib Regs Rdma) (self : Nat) (env : Surroundings Regs Rdma)
    (o : KernelOp Regs Rdma) (st : ModuleState Regs Rdma bufSize × List (Event Regs Rdma)) :
    o.Res × ModuleState Regs Rdma bufSize × List (Event Regs Rdma) :=
  let (r, s, now) := serve lib self env st.1 o
  (r, s, st.2 ++ now)

/-- A program run alone on a handle, with the events it emits. -/
def runAlone {alpha : Type} (lib : KernelLib Regs Rdma) (self : Nat)
    (env : Surroundings Regs Rdma) (p : KProg Regs Rdma alpha)
    (s : ModuleState Regs Rdma bufSize) :
    Outcome alpha × ModuleState Regs Rdma bufSize × List (Event Regs Rdma) :=
  p.run (serveLogged lib self env) (s, [])

/-!
## Steps
-/

structure Machine (Regs Rdma : Type) (bufSize : Nat) where
  state : ModuleState Regs Rdma bufSize
  /-- The command in progress on a handle, and what is left of it. -/
  running : Nat -> Option (Request × KProg Regs Rdma Int)
  nextHandle : Nat

inductive Act (Regs Rdma : Type) where
  | openHandle
  | command (self : Nat) (req : Request)
  | resume (self : Nat) (env : Surroundings Regs Rdma)
  | closeHandle (self : Nat) (env : Surroundings Regs Rdma)

namespace Machine

def init (pool : Pool bufSize) : Machine Regs Rdma bufSize where
  state := ModuleState.init pool
  running _ := none
  nextHandle := 0

def Idle (m : Machine Regs Rdma bufSize) (self : Nat) : Prop :=
  (m.state.handlers self).isSome ∧ (m.running self).isNone

instance (m : Machine Regs Rdma bufSize) (self : Nat) : Decidable (m.Idle self) :=
  inferInstanceAs (Decidable (_ ∧ _))

def setRunning (m : Machine Regs Rdma bufSize) (self : Nat)
    (command : Option (Request × KProg Regs Rdma Int)) : Machine Regs Rdma bufSize :=
  { m with running := Function.update m.running self command }

theorem setRunning_self (m : Machine Regs Rdma bufSize) (self : Nat)
    (command : Option (Request × KProg Regs Rdma Int)) :
    (m.setRunning self command).running self = command :=
  Function.update_self _ _ _

theorem setRunning_of_ne {m : Machine Regs Rdma bufSize} {self other : Nat}
    (hother : other ≠ self) (command : Option (Request × KProg Regs Rdma Int)) :
    (m.setRunning self command).running other = m.running other :=
  Function.update_of_ne hother _ _

/-- One step.  A command that panicked never takes another one. -/
def step (lib : KernelLib Regs Rdma) (m : Machine Regs Rdma bufSize) :
    Act Regs Rdma -> Option (Machine Regs Rdma bufSize × List (Event Regs Rdma))
  | .openHandle =>
      some
        ({ m with
            state := m.state.setHandler m.nextHandle (some DmergeSyscallHandler.default)
            nextHandle := m.nextHandle + 1 },
          [.opened m.nextHandle])
  | .command self req =>
      if m.Idle self then
        some (m.setRunning self (some (req, ioctrl lib req)), [.started self req])
      else none
  | .resume self env =>
      match m.running self with
      | none => none
      | some (_, .panic _) => none
      | some (req, .ret result) =>
          some (m.setRunning self none, [.finished self req result])
      | some (req, .call o k) =>
          if Admits m.state env o then
            let (r, state, now) := serve lib self env m.state o
            some ({ m with state := state }.setRunning self (some (req, k r)), now)
          else none
  | .closeHandle self env =>
      if m.Idle self then
        let (_, state, now) := runAlone lib self env dropHandler m.state
        some ({ m with state := state.setHandler self none }, now ++ [.closed self])
      else none

/-- What a step can do. -/
inductive Step (lib : KernelLib Regs Rdma) (m : Machine Regs Rdma bufSize) :
    Act Regs Rdma -> Machine Regs Rdma bufSize -> List (Event Regs Rdma) -> Prop where
  | opened :
      Step lib m .openHandle
        { m with
          state := m.state.setHandler m.nextHandle (some DmergeSyscallHandler.default)
          nextHandle := m.nextHandle + 1 }
        [.opened m.nextHandle]
  | started (self : Nat) (req : Request) (hidle : m.Idle self) :
      Step lib m (.command self req)
        (m.setRunning self (some (req, ioctrl lib req))) [.started self req]
  | finished (self : Nat) (env : Surroundings Regs Rdma) (req : Request) (result : Int)
      (hrunning : m.running self = some (req, .ret result)) :
      Step lib m (.resume self env) (m.setRunning self none) [.finished self req result]
  | answered (self : Nat) (env : Surroundings Regs Rdma) (req : Request)
      (o : KernelOp Regs Rdma) (k : o.Res -> KProg Regs Rdma Int)
      (hrunning : m.running self = some (req, .call o k))
      (hadmits : Admits m.state env o) :
      Step lib m (.resume self env)
        ({ m with state := (serve lib self env m.state o).2.1 }.setRunning self
          (some (req, k (serve lib self env m.state o).1)))
        (serve lib self env m.state o).2.2
  | closed (self : Nat) (env : Surroundings Regs Rdma) (hidle : m.Idle self) :
      Step lib m (.closeHandle self env)
        { m with
          state := (runAlone lib self env dropHandler m.state).2.1.setHandler self none }
        ((runAlone lib self env dropHandler m.state).2.2 ++ [.closed self])

theorem Step.of_step {lib : KernelLib Regs Rdma} {m m' : Machine Regs Rdma bufSize}
    {a : Act Regs Rdma} {now : List (Event Regs Rdma)}
    (h : m.step lib a = some (m', now)) : m.Step lib a m' now := by
  cases a with
  | openHandle =>
      cases h
      exact Step.opened
  | command self req =>
      simp only [step] at h
      split at h
      · next hidle =>
          cases h
          exact Step.started self req hidle
      · cases h
  | resume self env =>
      simp only [step] at h
      split at h
      · cases h
      · cases h
      · next req result hrunning =>
          cases h
          exact Step.finished self env req result hrunning
      · next req o k hrunning =>
          split at h
          · next hadmits =>
              cases h
              exact Step.answered self env req o k hrunning hadmits
          · cases h
  | closeHandle self env =>
      simp only [step] at h
      split at h
      · next hidle =>
          cases h
          exact Step.closed self env hidle
      · cases h

end Machine

/-!
## What an answer changes
-/

section Serve

variable (lib : KernelLib Regs Rdma) (self : Nat) (env : Surroundings Regs Rdma)
variable (s : ModuleState Regs Rdma bufSize)

theorem KernelOp.byKind {motive : KernelOp Regs Rdma -> Prop}
    (external : forall o : KernelOp Regs Rdma, o.External -> motive o)
    (getPrivateHint : motive .getPrivateHint)
    (setPrivateHint : forall hint, motive (.setPrivateHint hint))
    (pushPublicHeap : forall heap, motive (.pushPublicHeap heap))
    (allocOneId : motive .allocOneId)
    (addBundler : forall key heapStart rdmaMeta, motive (.addBundler key heapStart rdmaMeta))
    (queryDescriptorBuf : forall key, motive (.queryDescriptorBuf key))
    (unregister : forall key, motive (.unregister key))
    (o : KernelOp Regs Rdma) : motive o := by
  cases o with
  | getPrivateHint => exact getPrivateHint
  | setPrivateHint hint => exact setPrivateHint hint
  | pushPublicHeap heap => exact pushPublicHeap heap
  | allocOneId => exact allocOneId
  | addBundler key heapStart rdmaMeta => exact addBundler key heapStart rdmaMeta
  | queryDescriptorBuf key => exact queryDescriptorBuf key
  | unregister key => exact unregister key
  | _ => exact external _ True.intro

theorem serve_external {o : KernelOp Regs Rdma} (h : o.External) :
    serve lib self env s o = (env.answer o, s, []) := by
  cases o <;> first | rfl | exact h.elim

theorem serve_allocOneId_some {id : UInt64} {idGen : IdFactory}
    (h : s.idGen.allocOneId = some (id, idGen)) :
    serve lib self env s .allocOneId = (some id, { s with idGen := idGen }, [.issued self id]) := by
  simp only [serve, h]

theorem serve_allocOneId_none (h : s.idGen.allocOneId = none) :
    serve lib self env s .allocOneId = (none, s, []) := by
  simp only [serve, h]

theorem runAlone_dropHandler :
    runAlone lib self env dropHandler s =
      match s.hintOf self with
      | some hint =>
          (.returned (), { s with service := s.service.unregister hint },
            [.unregistered self hint])
      | none => (.returned (), s, []) := by
  unfold runAlone dropHandler
  simp only [invoke_bind, Prog.run_call, serveLogged, serve]
  cases s.hintOf self with
  | some hint => rfl
  | none => rfl

end Serve

namespace ModuleState

variable (lib : KernelLib Regs Rdma) (s : ModuleState Regs Rdma bufSize)

theorem bundle_register (key : UInt64) (reg : Registration Regs Rdma) (key' : UInt64) :
    (s.register lib key reg).bundle key' =
      if key' = key then some (reg.bundler lib) else s.bundle key' := by
  unfold register bundle ShadowHeapService.addBundler
  by_cases hkey : key' = key
  · rw [if_pos hkey, hkey]
    exact Finmap.lookup_insert _
  · rw [if_neg hkey]
    exact Finmap.lookup_insert_of_ne _ hkey

theorem bundle_unregister (key key' : UInt64) :
    { s with service := s.service.unregister key }.bundle key' =
      if key' = key then none else s.bundle key' := by
  unfold bundle ShadowHeapService.unregister
  by_cases hkey : key' = key
  · rw [if_pos hkey, hkey]
    exact Finmap.lookup_erase _ _
  · rw [if_neg hkey]
    exact Finmap.lookup_erase_ne hkey

@[simp] theorem bundle_setHandler (self : Nat)
    (handler : Option (DmergeSyscallHandler Regs Rdma)) (key : UInt64) :
    (s.setHandler self handler).bundle key = s.bundle key := rfl

theorem hintOf_setHandler (self : Nat)
    (handler : Option (DmergeSyscallHandler Regs Rdma)) (self' : Nat) :
    (s.setHandler self handler).hintOf self' =
      if self' = self then handler.bind DmergeSyscallHandler.privateHeapHint
      else s.hintOf self' := by
  unfold setHandler hintOf
  by_cases hself : self' = self
  · rw [if_pos hself, hself]
    simp only [Function.update_self]
  · rw [if_neg hself]
    simp only [Function.update_of_ne hself]

theorem hintOf_updateHandler (self : Nat)
    (f : DmergeSyscallHandler Regs Rdma -> DmergeSyscallHandler Regs Rdma) (self' : Nat) :
    (s.updateHandler self f).hintOf self' =
      if self' = self then (s.handlers self).bind fun h => (f h).privateHeapHint
      else s.hintOf self' := by
  unfold updateHandler
  rw [hintOf_setHandler]
  by_cases hself : self' = self
  · rw [if_pos hself, if_pos hself, Option.bind_map]
    rfl
  · rw [if_neg hself, if_neg hself]

theorem hintOf_pushPublicHeap (self : Nat) (heap : HeapDataStruct Regs Rdma) (self' : Nat) :
    (s.updateHandler self fun h =>
      { h with publicHeaps := h.publicHeaps ++ [heap] }).hintOf self' = s.hintOf self' := by
  rw [hintOf_updateHandler]
  by_cases hself : self' = self
  · rw [if_pos hself, hself]
    rfl
  · rw [if_neg hself]

theorem Free.ne {s : ModuleState Regs Rdma bufSize} {buf key : UInt64}
    {b : HeapBundler Regs Rdma} (hfree : s.Free buf) (hb : s.bundle key = some b) :
    b.serializedBuf ≠ buf := by
  intro hbuf
  have hmem : key ∈ s.service.registeredHeap.keys := by
    rw [Finmap.mem_keys, Finmap.mem_iff]
    exact ⟨b, hb⟩
  apply hfree key hmem
  unfold ShadowHeapService.queryDescriptorBuf
  rw [← hbuf]
  have hlookup : s.service.registeredHeap.lookup key = some b := hb
  rw [hlookup]
  rfl

end ModuleState
/-!
## Surroundings in which every call succeeds
-/

/-- Every call succeeds, except that an RPC gets the given reply, or none, and that no
region is mapped that ends before it starts.  A read yields the given bytes. -/
def obliging (reply : Option Bytes) (descBuf : Bytes) : (o : KernelOp UInt64 UInt64) -> o.Res
  | .getCallingCpuId => (0 : Nat)
  | .getGlobalCaller _ => some ()
  | .getMacId => (0 : UInt64)
  | .syncCall _ _ _ _ => true
  | .blockOnCaller _ => reply
  | .registerRecvBuf => some ()
  | .getSs _ => some ()
  | .getDcQpKey => some ()
  | .postRead _ _ _ => true
  | .blockOnRead _ => .done descBuf
  | .accessInfoNew machineInfo => some { machineInfo := machineInfo }
  | .mapOneRegion m _ => decide (m.getStart ≤ m.getEnd)
  | .allocPage => (0 : Nat)
  | .remoteRead _ _ _ => true
  | .postPageRead _ _ _ _ => true
  | .blockOnPageReads => .done ()
  | .vmInsertPage _ _ _ => true
  | .getPrivateHint => none
  | .allocOneId => none
  | .newFromDcTargetPool => some 0
  | .queryDescriptorBuf _ => none
  | .probeRemoteRpcEnd _ _ _ => some ()
  | .getRdmaContext _ => some []
  | .globalLocks | .lock _ | .unlock _ | .setMixedMap _ | .setAlloc _ | .freePage _
  | .setPrivateHint _
  | .pushPublicHeap _ | .addBundler _ _ _ | .unregister _ | .copyToUser _ _ => ()

def smallSurroundings (reply : Option Bytes) (buf : UInt64) : Surroundings UInt64 UInt64 where
  answer := obliging reply []
  task := smallTask
  buf := buf

end Kernel
end Dmerge
