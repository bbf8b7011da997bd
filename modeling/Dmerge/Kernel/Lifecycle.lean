import Dmerge.Foundation.Run
import Dmerge.Kernel.Commands

/-!
# Start-up and shut-down

The main thread of the module sets its globals and the services around them one
statement after the other, and drops them when the module is removed.  The RPC
workers poll from the moment they are spawned, in the middle of the start-up, and
a process may enter as soon as the device exists.  A call of a handler that goes
through a global that is not set ends in a panic.
-/

namespace Dmerge
namespace Kernel

open Foundation Memory Descriptors Producer Prog

variable {Regs Rdma : Type}

/-!
## Globals
-/

inductive Global where
  | shService
  | globalLocks
  | heapIdGenerator
  deriving DecidableEq, Repr

/-- The global that a call goes through.  `newFromDcTargetPool` is the first call of
`register_heap` on the service. -/
def KernelOp.global : KernelOp Regs Rdma -> Option Global
  | .newFromDcTargetPool | .addBundler _ _ _ | .queryDescriptorBuf _ | .unregister _ =>
      some .shService
  | .globalLocks | .lock _ | .unlock _ => some .globalLocks
  | .allocOneId => some .heapIdGenerator
  | _ => none

structure Globals where
  shService : Bool
  globalLocks : Bool
  heapIdGenerator : Bool
  deriving DecidableEq, Repr

namespace Globals

def isSet (g : Globals) : Global -> Bool
  | .shService => g.shService
  | .globalLocks => g.globalLocks
  | .heapIdGenerator => g.heapIdGenerator

def unset : Globals := { shService := false, globalLocks := false, heapIdGenerator := false }

def Finds (g : Globals) (o : KernelOp Regs Rdma) : Prop :=
  forall x, o.global = some x -> g.isSet x = true

end Globals

/-!
## The main thread
-/

inductive Stmt where
  | initShService
  | initMitosis
  | newWithWorker
  | newCallerPool
  | waitHandlersReadyBarrier
  | initGlobalLocks
  | initHeapIdGenerator
  | newSysCallsService
  | dropShService
  | dropGlobalLocks
  | dropHeapIdGenerator
  | endInstance
  | dropSysCallsService
  deriving DecidableEq, Repr

def Stmt.onGlobals (g : Globals) : Stmt -> Globals
  | .initShService => { g with shService := true }
  | .initGlobalLocks => { g with globalLocks := true }
  | .initHeapIdGenerator => { g with heapIdGenerator := true }
  | .dropShService => { g with shService := false }
  | .dropGlobalLocks => { g with globalLocks := false }
  | .dropHeapIdGenerator => { g with heapIdGenerator := false }
  | _ => g

def initRpc : List Stmt := [.newWithWorker, .newCallerPool, .waitHandlersReadyBarrier]

def startInstance : List Stmt :=
  .initMitosis :: initRpc ++ [.initGlobalLocks, .initHeapIdGenerator]

def startDmerge : List Stmt := .initShService :: startInstance

/-- `Module::init` -/
def moduleInit : List Stmt := startDmerge ++ [.newSysCallsService]

def endDmerge : List Stmt :=
  [.dropShService, .dropGlobalLocks, .dropHeapIdGenerator, .endInstance]

/-- `Drop for Module`, then the drop of its field. -/
def moduleDrop : List Stmt := endDmerge ++ [.dropSysCallsService]

/-- What comes in: an entry of the module, or the close of a handle. -/
inductive Work where
  | entry (e : Entry)
  | close

def Work.code (lib : KernelLib Regs Rdma) : Work -> KProg Regs Rdma Returned
  | .entry e => e.code lib
  | .close => do
      dropHandler
      return .result 0

def Work.ByWorker : Work -> Prop
  | .entry (.ioctrl _ _ _) => False
  | .entry _ => True
  | .close => False

instance (w : Work) : Decidable w.ByWorker := by
  unfold Work.ByWorker
  split <;> infer_instance

structure Lifecycle (Regs Rdma : Type) where
  /-- What is left of `Module::init`, or of the drop of the module. -/
  rest : List Stmt
  loaded : Bool
  removing : Bool
  globals : Globals
  /-- The workers run. -/
  polling : Bool
  /-- The device exists. -/
  admitted : Bool
  handlers : List (KProg Regs Rdma Returned)

inductive LifeAct (Regs Rdma : Type) where
  /-- The main thread goes on; what can fail succeeds or fails. -/
  | main (ok : Bool)
  | remove
  | take (w : Work)
  | resume (t : Nat) (answer : Answers Regs Rdma)

namespace Lifecycle

def init : Lifecycle Regs Rdma where
  rest := moduleInit
  loaded := false
  removing := false
  globals := Globals.unset
  polling := false
  admitted := false
  handlers := []

def execute (s : Lifecycle Regs Rdma) : Stmt -> Lifecycle Regs Rdma
  | .newWithWorker => { s with polling := true }
  | .newSysCallsService => { s with loaded := true, admitted := true }
  | .endInstance => { s with polling := false }
  | .dropSysCallsService => { s with admitted := false }
  | stmt => { s with globals := stmt.onGlobals s.globals }

/-- One statement, when it fails, if it can.  `start_dmerge` returns when MITOSIS cannot
be started, and the result is not looked at; the services of `init_rpc` are expected. -/
def fail (s : Lifecycle Regs Rdma) : Stmt -> Option (Lifecycle Regs Rdma)
  | .initMitosis => some { s with rest := [.newSysCallsService] }
  -- Some of the workers may run already.
  | .newWithWorker => some { s with rest := [], polling := true }
  | .newCallerPool => some { s with rest := [] }
  | .newSysCallsService => some { s with rest := [] }
  | _ => none

def accepts (s : Lifecycle Regs Rdma) (w : Work) : Bool :=
  if w.ByWorker then s.polling else s.admitted

/-- One step, with the globals that a call went through while they were not set. -/
def step (lib : KernelLib Regs Rdma) (s : Lifecycle Regs Rdma) :
    LifeAct Regs Rdma -> Option (Lifecycle Regs Rdma × List Global)
  | .main ok =>
      match s.rest with
      | [] => none
      | stmt :: rest =>
          if ok = true then some ({ s with rest := rest }.execute stmt, [])
          else ({ s with rest := rest }.fail stmt).map fun s' => (s', [])
  | .remove =>
      if s.loaded = true ∧ s.removing = false then
        some ({ s with rest := moduleDrop, removing := true }, [])
      else none
  | .take w =>
      if s.accepts w = true then
        some ({ s with handlers := s.handlers ++ [w.code lib] }, [])
      else none
  | .resume t answer =>
      match s.handlers[t]? with
      | some (.call o k) =>
          match o.global with
          | none => some ({ s with handlers := s.handlers.set t (k (answer o)) }, [])
          | some x =>
              if s.globals.isSet x = true then
                some ({ s with handlers := s.handlers.set t (k (answer o)) }, [])
              else
                some
                  ({ s with handlers := s.handlers.set t (.panic unwrapNone) }, [x])
      | _ => none

end Lifecycle

def Work.Needs : Work -> Global -> Prop
  | .entry (.nil _ _), _ => False
  | .entry (.echo _ _), _ => False
  | .entry (.query _ _), x => x = .shService
  | .entry (.remoteRegister _ _), x => x = .globalLocks
  | _, _ => True

def Stmt.drops : Stmt -> Option Global
  | .dropShService => some .shService
  | .dropGlobalLocks => some .globalLocks
  | .dropHeapIdGenerator => some .heapIdGenerator
  | _ => none

def Spares (x : Global) (p : KProg Regs Rdma Returned) : Prop :=
  p.Only fun o => KernelOp.global o ≠ some x

/-- MITOSIS can be started, and a global is dropped when no handler in progress may still
go through it.  A remote registration, and during the removal all other work, is taken up
when what it may go through is set. -/
def Orderly (s : Lifecycle Regs Rdma) : LifeAct Regs Rdma -> Prop
  | .main ok =>
      (s.rest.head? = some .initMitosis -> ok = true) ∧
        forall x, s.rest.head?.bind Stmt.drops = some x ->
          forall p, p ∈ s.handlers -> Spares x p
  | .take w =>
      (s.removing = true ∨ exists input output, w = .entry (.remoteRegister input output)) ->
        forall x, w.Needs x -> s.globals.isSet x = true
  | _ => True

/-!
## What each part of the start-up finds
-/

/-- The workers are spawned when the registry is there, the device is made when all
globals are there, and only the removal drops one. -/
def Stmt.Ready (removing : Bool) (g : Globals) : Stmt -> Prop
  | .newWithWorker => g.shService = true
  | .newSysCallsService => forall x, g.isSet x = true
  | .dropShService | .dropGlobalLocks | .dropHeapIdGenerator => removing = true
  | _ => True

def Due (removing : Bool) : List Stmt -> Globals -> Prop
  | [], _ => True
  | stmt :: rest, g => stmt.Ready removing g ∧ Due removing rest (stmt.onGlobals g)

theorem due_moduleInit : Due false moduleInit Globals.unset := by
  have hall : forall x, Globals.isSet
      { shService := true, globalLocks := true, heapIdGenerator := true } x = true := by
    intro x
    cases x <;> rfl
  exact ⟨True.intro, True.intro, rfl, True.intro, True.intro, True.intro, True.intro, hall,
    True.intro⟩

theorem due_moduleDrop (g : Globals) : Due true moduleDrop g :=
  ⟨rfl, rfl, rfl, True.intro, True.intro, True.intro⟩

theorem Stmt.Ready.drops {g : Globals} {stmt : Stmt} (h : stmt.Ready false g) :
    stmt.drops = none := by
  cases stmt with
  | dropShService => cases h
  | dropGlobalLocks => cases h
  | dropHeapIdGenerator => cases h
  | _ => rfl

theorem Stmt.onGlobals_isSet {g : Globals} {stmt : Stmt} {x : Global}
    (hset : g.isSet x = true) (hkept : stmt.drops ≠ some x) :
    (stmt.onGlobals g).isSet x = true := by
  cases stmt with
  | initShService => cases x <;> first | rfl | exact hset
  | initGlobalLocks => cases x <;> first | rfl | exact hset
  | initHeapIdGenerator => cases x <;> first | rfl | exact hset
  | dropShService => cases x <;> first | exact absurd rfl hkept | exact hset
  | dropGlobalLocks => cases x <;> first | exact absurd rfl hkept | exact hset
  | dropHeapIdGenerator => cases x <;> first | exact absurd rfl hkept | exact hset
  | _ => exact hset

section Handlers

variable {lib : KernelLib Regs Rdma} {g : Globals}

theorem finds_none {o : KernelOp Regs Rdma} (h : o.global = none) : g.Finds o := by
  intro x hx
  rw [h] at hx
  cases hx

theorem finds_some {o : KernelOp Regs Rdma} {x : Global} (h : o.global = some x)
    (hset : g.isSet x = true) : g.Finds o := by
  intro y hy
  rw [h] at hy
  cases hy
  exact hset

theorem handleEcho_finds (input output : Bytes) :
    (handleEcho lib input output).Only g.Finds := by
  apply (only_expect unwrapErr (lib.writeStr output "Hello from DMERGE")).bind
  intro written
  exact True.intro

theorem handleQuery_finds (hset : g.shService = true) (input output : Bytes) :
    (handleQuery lib input output).Only g.Finds := by
  refine ⟨finds_some rfl hset, fun buf => ?_⟩
  cases buf with
  | none => exact True.intro
  | some buf => exact True.intro

theorem unlockFail_finds (hset : g.globalLocks = true) (cpu : CpuId) :
    (unlockFail cpu : KProg Regs Rdma Int).Only g.Finds :=
  ⟨finds_some rfl hset, fun _ => True.intro⟩

theorem lockCpu_finds (hset : g.globalLocks = true) (cpu : CpuId) :
    (lockCpu lib cpu).Only g.Finds := by
  rcases lockCpu_eq lib cpu with ⟨_, hlock⟩ | ⟨_, hlock⟩
  · rw [hlock]
    exact ⟨finds_some rfl hset, fun _ => True.intro⟩
  · rw [hlock]
    exact ⟨finds_some rfl hset, fun _ => True.intro⟩

theorem remoteDescriptorFetch_finds (size pa : UInt64) (session : SessionId) :
    (remoteDescriptorFetch size pa session : KProg Regs Rdma (Option Bytes)).Only g.Finds := by
  refine ⟨finds_none rfl, fun ss => (only_expect _ ss).bind fun _ => ?_⟩
  refine ⟨finds_none rfl, fun qp => (only_expect _ qp).bind fun _ => ?_⟩
  refine ⟨finds_none rfl, fun posted => ?_⟩
  cases posted with
  | false => exact True.intro
  | true =>
      refine ⟨finds_none rfl, fun completion => ?_⟩
      cases completion <;> exact True.intro

theorem handleRemoteRegister_finds (hset : g.globalLocks = true) (input output : Bytes) :
    (handleRemoteRegister lib input output).Only g.Finds := by
  unfold handleRemoteRegister
  have hfetch : forall req, (handleRemoteRegisterFetchApply lib req).Only g.Finds := by
    intro req
    refine ⟨finds_none rfl, fun cpu => (lockCpu_finds hset cpu).bind fun _ => ?_⟩
    refine ⟨finds_none rfl, fun caller => (only_expect _ caller).bind fun _ => ?_⟩
    apply (remoteDescriptorFetch_finds _ _ _).bind
    intro descBuf
    cases descBuf with
    | none => exact unlockFail_finds hset cpu
    | some descBuf =>
        simp only
        cases HeapDescriptor.deserialize lib descBuf with
        | error stop =>
            cases stop with
            | abort => exact True.intro
            | reject => exact unlockFail_finds hset cpu
        | ok des =>
            refine ⟨finds_none rfl, fun info => ?_⟩
            cases info with
            | none => exact unlockFail_finds hset cpu
            | some _ => exact ⟨finds_some rfl hset, fun _ => True.intro⟩
  apply (hfetch _).bind
  intro heapHint
  split <;> exact True.intro

theorem Work.code_finds {w : Work} (hneeds : forall x, w.Needs x -> g.isSet x = true) :
    (w.code lib).Only g.Finds := by
  cases w with
  | close =>
      apply only_of_forall
      intro o x _
      exact hneeds x True.intro
  | entry e =>
      cases e with
      | ioctrl cmd arg user =>
          apply only_of_forall
          intro o x _
          exact hneeds x True.intro
      | nil input output => exact True.intro
      | echo input output =>
          apply (handleEcho_finds input output).bind
          intro reply
          exact True.intro
      | query input output =>
          apply (handleQuery_finds (hneeds .shService rfl) input output).bind
          intro reply
          exact True.intro
      | remoteRegister input output =>
          apply (handleRemoteRegister_finds (hneeds .globalLocks rfl) input output).bind
          intro reply
          exact True.intro

end Handlers

theorem finds_after {g : Globals} {stmt : Stmt} {p : KProg Regs Rdma Returned}
    (hfinds : p.Only g.Finds) (hspares : forall x, stmt.drops = some x -> Spares x p) :
    p.Only (stmt.onGlobals g).Finds := by
  cases hdrops : stmt.drops with
  | none =>
      apply hfinds.weaken
      intro o ho x hx
      apply Stmt.onGlobals_isSet (ho x hx)
      rw [hdrops]
      exact Option.some_ne_none x |>.symm
  | some y =>
      apply (hfinds.and (hspares y hdrops)).weaken
      intro o ho x hx
      apply Stmt.onGlobals_isSet (ho.1 x hx)
      rw [hdrops, <- hx]
      exact fun h => ho.2 h.symm

/-!
## The invariant
-/

structure LifeInv (s : Lifecycle Regs Rdma) : Prop where
  due : Due s.removing s.rest s.globals
  polling : s.polling = true -> s.removing = false -> s.globals.shService = true
  admitted : s.admitted = true -> s.removing = false -> forall x, s.globals.isSet x = true
  handlers : forall p, p ∈ s.handlers -> p.Only s.globals.Finds

section Steps

variable {lib : KernelLib Regs Rdma} {s s' : Lifecycle Regs Rdma}

theorem lifeInv_init : LifeInv (Lifecycle.init : Lifecycle Regs Rdma) where
  due := due_moduleInit
  polling h := by cases h
  admitted h := by cases h
  handlers p hp := by cases hp

@[simp] theorem execute_rest (stmt : Stmt) : (s.execute stmt).rest = s.rest := by
  cases stmt <;> rfl

@[simp] theorem execute_removing (stmt : Stmt) : (s.execute stmt).removing = s.removing := by
  cases stmt <;> rfl

@[simp] theorem execute_handlers (stmt : Stmt) : (s.execute stmt).handlers = s.handlers := by
  cases stmt <;> rfl

@[simp] theorem execute_globals (stmt : Stmt) :
    (s.execute stmt).globals = stmt.onGlobals s.globals := by
  cases stmt <;> rfl

theorem polling_execute {stmt : Stmt} (h : (s.execute stmt).polling = true) :
    s.polling = true ∨ stmt = .newWithWorker := by
  cases stmt with
  | newWithWorker => exact Or.inr rfl
  | endInstance => cases h
  | _ => exact Or.inl h

theorem admitted_execute {stmt : Stmt} (h : (s.execute stmt).admitted = true) :
    s.admitted = true ∨ stmt = .newSysCallsService := by
  cases stmt with
  | newSysCallsService => exact Or.inr rfl
  | dropSysCallsService => cases h
  | _ => exact Or.inl h

theorem LifeInv.execute {stmt : Stmt} {rest : List Stmt} (hinv : LifeInv s)
    (hrest : s.rest = stmt :: rest)
    (hspares : forall x, stmt.drops = some x -> forall p, p ∈ s.handlers -> Spares x p) :
    LifeInv ({ s with rest := rest }.execute stmt) := by
  have hdue : stmt.Ready s.removing s.globals ∧
      Due s.removing rest (stmt.onGlobals s.globals) := by
    have h := hinv.due
    rw [hrest] at h
    exact h
  -- Before the removal what was set stays set.
  have hkept : s.removing = false -> forall x, s.globals.isSet x = true ->
      (stmt.onGlobals s.globals).isSet x = true := by
    intro hremoving x hx
    apply Stmt.onGlobals_isSet hx
    have hready := hdue.1
    rw [hremoving] at hready
    rw [hready.drops]
    exact fun h => by cases h
  constructor
  · simpa using hdue.2
  · intro hpolling hremoving
    simp only [execute_removing] at hremoving
    simp only [execute_globals]
    apply hkept hremoving .shService
    cases polling_execute hpolling with
    | inl h => exact hinv.polling h hremoving
    | inr h =>
        have hready := hdue.1
        rw [h] at hready
        exact hready
  · intro hadmitted hremoving x
    simp only [execute_removing] at hremoving
    simp only [execute_globals]
    apply hkept hremoving x
    cases admitted_execute hadmitted with
    | inl h => exact hinv.admitted h hremoving x
    | inr h =>
        have hready := hdue.1
        rw [h] at hready
        exact hready x
  · intro p hp
    simp only [execute_handlers] at hp
    simp only [execute_globals]
    exact finds_after (hinv.handlers p hp) fun x hx => hspares x hx p hp

theorem LifeInv.fail {stmt : Stmt} {rest : List Stmt} (hinv : LifeInv s)
    (hrest : s.rest = stmt :: rest) (hmitosis : stmt ≠ .initMitosis)
    (hfail : { s with rest := rest }.fail stmt = some s') : LifeInv s' := by
  have hdue := hinv.due
  rw [hrest] at hdue
  cases stmt with
  | initMitosis => exact absurd rfl hmitosis
  | newWithWorker =>
      cases hfail
      exact ⟨True.intro, fun _ _ => hdue.1, hinv.admitted, hinv.handlers⟩
  | newCallerPool =>
      cases hfail
      exact ⟨True.intro, hinv.polling, hinv.admitted, hinv.handlers⟩
  | newSysCallsService =>
      cases hfail
      exact ⟨True.intro, hinv.polling, hinv.admitted, hinv.handlers⟩
  | _ => cases hfail

theorem LifeInv.needs {w : Work} (hinv : LifeInv s) (haccepts : s.accepts w = true)
    (horderly : Orderly s (.take w)) (x : Global) (hneeds : w.Needs x) :
    s.globals.isSet x = true := by
  cases hremoving : s.removing with
  | true => exact horderly (Or.inl hremoving) x hneeds
  | false =>
      cases w with
      | close => exact hinv.admitted haccepts hremoving x
      | entry e =>
          cases e with
          | ioctrl cmd arg user => exact hinv.admitted haccepts hremoving x
          | nil input output => cases hneeds
          | echo input output => cases hneeds
          | query input output =>
              cases hneeds
              exact hinv.polling haccepts hremoving
          | remoteRegister input output =>
              exact horderly (Or.inr ⟨input, output, rfl⟩) x hneeds

theorem LifeInv.step {act : LifeAct Regs Rdma} {events : List Global} (hinv : LifeInv s)
    (horderly : Orderly s act) (hstep : s.step lib act = some (s', events)) :
    LifeInv s' ∧ events = [] := by
  cases act with
  | main ok =>
      rcases horderly with ⟨hmitosis, hspares⟩
      simp only [Lifecycle.step] at hstep
      cases hrest : s.rest with
      | nil =>
          rw [hrest] at hstep
          cases hstep
      | cons stmt rest =>
          rw [hrest] at hstep hmitosis hspares
          cases ok with
          | true =>
              cases hstep
              exact ⟨hinv.execute hrest hspares, rfl⟩
          | false =>
              rcases Option.map_eq_some_iff.mp hstep with ⟨t, hfail, heq⟩
              cases heq
              constructor
              · apply hinv.fail hrest _ hfail
                intro heq
                rw [heq] at hmitosis
                cases hmitosis rfl
              · rfl
  | remove =>
      simp only [Lifecycle.step] at hstep
      split at hstep
      · cases hstep
        exact ⟨⟨due_moduleDrop s.globals, fun _ h => (by cases h), fun _ h => (by cases h),
          hinv.handlers⟩, rfl⟩
      · cases hstep
  | take w =>
      simp only [Lifecycle.step] at hstep
      split at hstep
      case isFalse => cases hstep
      case isTrue haccepts =>
        cases hstep
        refine ⟨⟨hinv.due, hinv.polling, hinv.admitted, ?_⟩, rfl⟩
        intro p hp
        cases List.mem_append.mp hp with
        | inl h => exact hinv.handlers p h
        | inr h =>
            rw [List.mem_singleton.mp h]
            exact Work.code_finds (hinv.needs haccepts horderly)
  | resume t answer =>
      simp only [Lifecycle.step] at hstep
      cases hprog : s.handlers[t]? with
      | none =>
          rw [hprog] at hstep
          cases hstep
      | some p =>
          rw [hprog] at hstep
          have hfinds := hinv.handlers p (List.mem_of_getElem? hprog)
          cases p with
          | ret a => cases hstep
          | panic msg => cases hstep
          | call o k =>
              have hafter : LifeInv
                  { s with handlers := s.handlers.set t (k (answer o)) } := by
                refine ⟨hinv.due, hinv.polling, hinv.admitted, ?_⟩
                intro q hq
                cases List.mem_or_eq_of_mem_set hq with
                | inl h => exact hinv.handlers q h
                | inr h =>
                    rw [h]
                    exact hfinds.2 (answer o)
              cases hglobal : KernelOp.global o with
              | none =>
                  simp only [hglobal] at hstep
                  cases hstep
                  exact ⟨hafter, rfl⟩
              | some x =>
                  simp only [hglobal] at hstep
                  rw [if_pos (hfinds.1 x hglobal)] at hstep
                  cases hstep
                  exact ⟨hafter, rfl⟩

end Steps

/-- In every run whose steps are orderly, no handler goes through a global that is not
set. -/
theorem globals_found (lib : KernelLib Regs Rdma) {acts : List (LifeAct Regs Rdma)}
    {s : Lifecycle Regs Rdma} {touched : List Global}
    (hmeets : RunMeets (Lifecycle.step lib) Orderly Lifecycle.init acts)
    (hrun : runFrom (Lifecycle.step lib) Lifecycle.init acts = some (s, touched)) :
    touched = [] := by
  have hstep : forall (s : Lifecycle Regs Rdma) past a s' now,
      LifeInv s ∧ past = [] -> Orderly s a -> Lifecycle.step lib s a = some (s', now) ->
        LifeInv s' ∧ past ++ now = ([] : List Global) := by
    intro s past a s' now hinv horderly hs
    rcases hinv.1.step horderly hs with ⟨hinv', hnow⟩
    rw [hinv.2, hnow]
    exact ⟨hinv', rfl⟩
  have hinit : LifeInv (Lifecycle.init : Lifecycle Regs Rdma) ∧ ([] : List Global) = [] :=
    ⟨lifeInv_init, rfl⟩
  exact (runFrom_invariant hstep hinit hmeets hrun).2

/-!
## A start-up and a removal
-/

/-- A condition that can be tested: a global is dropped when no handler is in progress,
and nothing is taken up during the removal. -/
def Quiet (s : Lifecycle Regs Rdma) : LifeAct Regs Rdma -> Prop
  | .main ok =>
      ok = true ∧
        ((s.rest.head?.bind Stmt.drops).isSome = true ->
          forall p, p ∈ s.handlers -> p.outcome.isSome = true)
  | .take w => s.removing = false ∧
      match w with
      | .entry (.remoteRegister _ _) => s.globals.globalLocks = true
      | _ => True
  | _ => True

instance (s : Lifecycle Regs Rdma) (a : LifeAct Regs Rdma) : Decidable (Quiet s a) := by
  unfold Quiet
  repeat' split
  all_goals infer_instance

theorem spares_of_outcome {x : Global} {p : KProg Regs Rdma Returned}
    (h : p.outcome.isSome = true) : Spares x p := by
  cases p with
  | ret a => exact True.intro
  | panic msg => exact True.intro
  | call o k => cases h

theorem Quiet.orderly {s : Lifecycle Regs Rdma} {a : LifeAct Regs Rdma} (h : Quiet s a) :
    Orderly s a := by
  cases a with
  | main ok =>
      constructor
      · intro _
        exact h.1
      · intro x hx p hp
        apply spares_of_outcome
        apply h.2 _ p hp
        rw [hx]
        rfl
  | remove => exact True.intro
  | resume t answer => exact True.intro
  | take w =>
      intro hor x hneeds
      rcases hor with hremoving | ⟨input, output, rfl⟩
      · exact absurd (hremoving.symm.trans h.1) (by decide)
      · cases hneeds
        exact h.2

def mainSteps (n : Nat) : List (LifeAct UInt64 UInt64) := List.replicate n (.main true)

/-- The handler `t` takes work up and goes on. -/
def handlerSteps (t : Nat) (w : Work) (n : Nat) : List (LifeAct UInt64 UInt64) :=
  .take w :: List.replicate n (.resume t (obliging none (List.replicate 24 0)))

/-- A query while the workers are spawned, a remote registration after the start-up, and
the removal. -/
def startAndRemoveActs : List (LifeAct UInt64 UInt64) :=
  mainSteps 3 ++ handlerSteps 0 (.entry (.query [] [])) 1 ++ mainSteps 5 ++
    handlerSteps 1 (.entry (.remoteRegister [] [])) 9 ++ [.remove] ++ mainSteps 5

def earlyActs : List (LifeAct UInt64 UInt64) :=
  mainSteps 3 ++ handlerSteps 0 (.entry (.remoteRegister [] [])) 2

theorem globals_found_quiet :
    exists (s : Lifecycle UInt64 UInt64) (touched : List Global),
      RunMeets (Lifecycle.step plainLib) Orderly Lifecycle.init startAndRemoveActs ∧
        runFrom (Lifecycle.step plainLib) Lifecycle.init startAndRemoveActs = some (s, touched) ∧
          s.handlers.map outcome =
            [some (.returned (.reply [] 0)), some (.returned (.reply [] 8))] ∧
          touched = [] := by
  have hended : (runFrom (Lifecycle.step plainLib) Lifecycle.init startAndRemoveActs).map
      (fun r => r.1.handlers.map outcome) =
        some [some (.returned (.reply [] 0)), some (.returned (.reply [] 8))] := by
    decide +kernel
  rcases Option.map_eq_some_iff.mp hended with ⟨⟨s, touched⟩, hrun, hs⟩
  have hquiet : RunMeets (Lifecycle.step plainLib) Quiet Lifecycle.init startAndRemoveActs := by
    decide +kernel
  have hmeets := hquiet.weaken fun _ _ h => h.orderly
  exact ⟨s, touched, hmeets, hrun, hs, globals_found plainLib hmeets hrun⟩

theorem not_globals_found_early :
    ¬ forall (acts : List (LifeAct UInt64 UInt64)) s touched,
      runFrom (Lifecycle.step plainLib) Lifecycle.init acts = some (s, touched) ->
        touched = [] := by
  intro h
  have htouched : (runFrom (Lifecycle.step plainLib) Lifecycle.init earlyActs).map
      (fun r => r.2) = some [.globalLocks] := by
    decide +kernel
  rcases Option.map_eq_some_iff.mp htouched with ⟨⟨s, touched⟩, hrun, hlocks⟩
  have hnone : touched = [] := h earlyActs s touched hrun
  rw [hnone] at hlocks
  cases hlocks

end Kernel
end Dmerge
