import Dmerge.Foundation.CountingBarrier
import Dmerge.Kernel.Lifecycle

/-!
# The barrier of the RPC workers

Each RPC worker makes a queue pair, registers its callbacks, posts its receive
buffers and then adds one to a counter; the main thread spins until the counter
has reached the number of workers.  The workers and the main thread take their
steps in any order, and a worker may panic on its way.
-/

namespace Dmerge
namespace Kernel

open Foundation Memory Descriptors Producer Prog

variable {Regs Rdma : Type} {n : Nat}

/-!
## A worker
-/

def callbacks : List RPCId := [.nil, .echo, .query, .remoteRegister]

def recvBufs : Nat := 2048

inductive WorkerStage where
  | entered
  | contextFound
  | factoryFound
  | udCreated
  | udRegistered
  | registering (left : List RPCId)
  | posting (left : Nat)
  | serving
  | ended
  | panicked (msg : String)
  deriving DecidableEq, Repr

structure Worker where
  stage : WorkerStage
  handlers : List RPCId
  /-- The buffers that were posted, and the errors that were logged. -/
  posted : Nat
  postErrs : Nat
  deriving DecidableEq, Repr

namespace Worker

def init : Worker where
  stage := .entered
  handlers := []
  posted := 0
  postErrs := 0

/-- One statement of `worker`, when it succeeds; the second part tells if it adds one to
`RPC_HANDLER_READY_NUM`. -/
def goOn (w : Worker) : Option (Worker × Bool) :=
  match w.stage with
  | .entered => some ({ w with stage := .contextFound }, false)
  | .contextFound => some ({ w with stage := .factoryFound }, false)
  | .factoryFound => some ({ w with stage := .udCreated }, false)
  | .udCreated => some ({ w with stage := .udRegistered }, false)
  | .udRegistered => some ({ w with stage := .registering callbacks }, false)
  | .registering (id :: left) =>
      some ({ w with stage := .registering left, handlers := w.handlers ++ [id] }, false)
  | .registering [] => some ({ w with stage := .posting recvBufs }, false)
  | .posting (left + 1) =>
      some ({ w with stage := .posting left, posted := w.posted + 1 }, false)
  | .posting 0 => some ({ w with stage := .serving }, true)
  | .serving | .ended | .panicked _ => none

def fail (w : Worker) : Option Worker :=
  match w.stage with
  | .entered => some { w with stage := .panicked unwrapNone }
  | .contextFound => some { w with stage := .panicked "failed to query the factory" }
  | .factoryFound => some { w with stage := .panicked "failed to create server UD" }
  | .udCreated => some { w with stage := .panicked unwrapNone }
  | .udRegistered => some { w with stage := .panicked unwrapNone }
  | .posting (left + 1) =>
      some { w with stage := .posting left, postErrs := w.postErrs + 1 }
  | _ => none

def announced (w : Worker) : Bool :=
  match w.stage with
  | .serving | .ended => true
  | _ => false

end Worker

/-!
## The workers beside the main thread
-/

def Work.rpcId : Work -> Option RPCId
  | .entry (.nil _ _) => some .nil
  | .entry (.echo _ _) => some .echo
  | .entry (.query _ _) => some .query
  | .entry (.remoteRegister _ _) => some .remoteRegister
  | _ => none

structure Boot (Regs Rdma : Type) (n : Nat) where
  life : Lifecycle Regs Rdma
  workers : Fin n -> Worker
  /-- `RPC_HANDLER_READY_NUM` -/
  readyNum : Nat

inductive BootAct (Regs Rdma : Type) (n : Nat) where
  | main (ok : Bool)
  | remove
  /-- A worker that was spawned goes on. -/
  | worker (i : Fin n) (ok : Bool)
  /-- A worker is stopped. -/
  | stop (i : Fin n)
  /-- A worker polls, and there is work. -/
  | poll (i : Fin n) (w : Work)
  /-- A process enters by the device. -/
  | enter (w : Work)
  | resume (t : Nat) (answer : Answers Regs Rdma)

inductive BootObs (n : Nat) where
  | passed
  /-- A worker finds no callback for a request. -/
  | unknown (i : Fin n) (w : Work)

namespace Boot

def init : Boot Regs Rdma n where
  life := Lifecycle.init
  workers _ := Worker.init
  readyNum := 0

/-- The main thread waits at the barrier. -/
def Waits (s : Boot Regs Rdma n) : Prop :=
  s.life.rest.head? = some .waitHandlersReadyBarrier

instance (s : Boot Regs Rdma n) : Decidable s.Waits :=
  inferInstanceAs (Decidable (_ = _))

def stepLife (lib : KernelLib Regs Rdma) (s : Boot Regs Rdma n) (act : LifeAct Regs Rdma)
    (now : List (BootObs n)) : Option (Boot Regs Rdma n × List (BootObs n)) :=
  (s.life.step lib act).map fun r => ({ s with life := r.1 }, now)

def setWorker (s : Boot Regs Rdma n) (i : Fin n) (w : Worker) : Boot Regs Rdma n :=
  { s with workers := Function.update s.workers i w }

def step (lib : KernelLib Regs Rdma) (s : Boot Regs Rdma n) :
    BootAct Regs Rdma n -> Option (Boot Regs Rdma n × List (BootObs n))
  | .main ok =>
      if s.Waits then
        -- The counter is loaded again as long as it is too small.
        if n ≤ s.readyNum then s.stepLife lib (.main ok) [.passed] else none
      else s.stepLife lib (.main ok) []
  | .remove => s.stepLife lib .remove []
  | .worker i ok =>
      if s.life.polling = true then
        if ok = true then
          (s.workers i).goOn.map fun r =>
            ({ s.setWorker i r.1 with
                readyNum := if r.2 = true then s.readyNum + 1 else s.readyNum }, [])
        else (s.workers i).fail.map fun w => (s.setWorker i w, [])
      else none
  | .stop i =>
      if s.life.polling = false ∧ (s.workers i).stage = .serving then
        some (s.setWorker i { s.workers i with stage := .ended }, [])
      else none
  | .poll i w =>
      if (s.workers i).stage = .serving then
        match w.rpcId with
        | none => none
        | some id =>
            if id ∈ (s.workers i).handlers then s.stepLife lib (.take w) []
            else some (s, [.unknown i w])
      else none
  | .enter w => if w.ByWorker then none else s.stepLife lib (.take w) []
  | .resume t answer => s.stepLife lib (.resume t answer) []

end Boot

/-!
## What a worker has done at each stage
-/

namespace Worker

variable {w w' : Worker}

def Ok (w : Worker) : Prop :=
  match w.stage with
  | .registering left => w.handlers ++ left = callbacks ∧ w.posted + w.postErrs = 0
  | .posting left => w.handlers = callbacks ∧ w.posted + w.postErrs + left = recvBufs
  | .serving | .ended => w.handlers = callbacks ∧ w.posted + w.postErrs = recvBufs
  | .panicked _ => True
  | _ => w.handlers = [] ∧ w.posted + w.postErrs = 0

/-- The worker has registered all callbacks, has tried to post each buffer, and has told
so. -/
structure Armed (w : Worker) : Prop where
  announced : w.announced = true
  handlers : w.handlers = callbacks
  tried : w.posted + w.postErrs = recvBufs

theorem Ok.armed (h : w.Ok) (hannounced : w.announced = true) : w.Armed := by
  rcases w with ⟨stage, handlers, posted, postErrs⟩
  cases stage with
  | serving => exact ⟨rfl, h.1, h.2⟩
  | ended => exact ⟨rfl, h.1, h.2⟩
  | _ => cases hannounced

theorem goOn_ok (h : w.Ok) {counts : Bool} (hgo : w.goOn = some (w', counts)) :
    w'.Ok ∧ w'.announced = counts ∧ w.announced = false := by
  rcases w with ⟨stage, handlers, posted, postErrs⟩
  cases stage with
  | registering left =>
      cases left with
      | nil =>
          cases hgo
          have hall : handlers = callbacks := by
            rw [← h.1, List.append_nil]
          exact ⟨⟨hall, by rw [h.2, Nat.zero_add]⟩, rfl, rfl⟩
      | cons id left =>
          cases hgo
          refine ⟨⟨?_, h.2⟩, rfl, rfl⟩
          rw [List.append_assoc, List.singleton_append]
          exact h.1
  | posting left =>
      cases left with
      | zero =>
          cases hgo
          exact ⟨⟨h.1, h.2⟩, rfl, rfl⟩
      | succ left =>
          cases hgo
          have htried : posted + postErrs + (left + 1) = recvBufs := h.2
          have hnext : posted + 1 + postErrs + left = recvBufs := by
            omega
          exact ⟨⟨h.1, hnext⟩, rfl, rfl⟩
  | udRegistered =>
      cases hgo
      refine ⟨⟨?_, h.2⟩, rfl, rfl⟩
      rw [h.1, List.nil_append]
  | serving => cases hgo
  | ended => cases hgo
  | panicked msg => cases hgo
  | _ =>
      cases hgo
      exact ⟨h, rfl, rfl⟩

theorem fail_ok (h : w.Ok) (hfail : w.fail = some w') :
    w'.Ok ∧ w'.announced = false ∧ w.announced = false := by
  rcases w with ⟨stage, handlers, posted, postErrs⟩
  cases stage with
  | posting left =>
      cases left with
      | zero => cases hfail
      | succ left =>
          cases hfail
          have htried : posted + postErrs + (left + 1) = recvBufs := h.2
          have hnext : posted + (postErrs + 1) + left = recvBufs := by
            omega
          exact ⟨⟨h.1, hnext⟩, rfl, rfl⟩
  | registering left => cases hfail
  | serving => cases hfail
  | ended => cases hfail
  | panicked msg => cases hfail
  | _ =>
      cases hfail
      exact ⟨True.intro, rfl, rfl⟩

theorem serving_ok (h : w.Ok) (hstage : w.stage = .serving) :
    w.announced = true ∧ { w with stage := .ended }.Ok := by
  rcases w with ⟨stage, handlers, posted, postErrs⟩
  cases hstage
  exact ⟨rfl, h⟩

end Worker

/-!
## Every order of the steps
-/

section Steps

variable {lib : KernelLib Regs Rdma} {s s' : Boot Regs Rdma n}
variable {past now : List (BootObs n)}

/-- The counter is the number of workers that have announced themselves, the barrier was
passed when all had, and no request was without a callback. -/
structure BootInv (s : Boot Regs Rdma n) (past : List (BootObs n)) : Prop where
  ok : forall i, (s.workers i).Ok
  counted : s.readyNum = doneCount Worker.announced s.workers
  passed : .passed ∈ past -> forall i, (s.workers i).announced = true
  known : forall i w, .unknown i w ∉ past

theorem bootInv_init : BootInv (Boot.init : Boot Regs Rdma n) [] where
  ok _ := ⟨rfl, rfl⟩
  counted := (doneCount_init rfl).symm
  passed h := by cases h
  known _ _ h := by cases h

theorem BootInv.stepLife (h : BootInv s past) {act : LifeAct Regs Rdma}
    (hnow : (.passed : BootObs n) ∈ now -> forall i, (s.workers i).announced = true)
    (hknown : forall i w, (.unknown i w : BootObs n) ∉ now)
    (hstep : s.stepLife lib act now = some (s', now)) : BootInv s' (past ++ now) := by
  rcases Option.map_eq_some_iff.mp hstep with ⟨⟨life, gone⟩, _, hr⟩
  cases hr
  refine ⟨h.ok, h.counted, fun hpassed => ?_, fun i w hunknown => ?_⟩
  · rcases List.mem_append.mp hpassed with hpast | hnew
    · exact h.passed hpast
    · exact hnow hnew
  · rcases List.mem_append.mp hunknown with hpast | hnew
    · exact h.known i w hpast
    · exact hknown i w hnew

theorem forall_setWorker {P : Worker -> Prop} (h : forall j, P (s.workers j)) {i : Fin n}
    {w : Worker} (hw : P w) (j : Fin n) : P ((s.setWorker i w).workers j) := by
  have hall : forall j, P (Function.update s.workers i w j) :=
    (Function.forall_update_iff s.workers fun _ w => P w).mpr ⟨hw, fun j _ => h j⟩
  exact hall j

theorem BootInv.keep (h : BootInv s past) {i : Fin n} {w : Worker} (hok : w.Ok)
    (hsame : w.announced = (s.workers i).announced) : BootInv (s.setWorker i w) past where
  ok := forall_setWorker h.ok hok
  counted := h.counted.trans (doneCount_same hsame).symm
  passed hpassed := forall_setWorker (P := fun w => w.announced = true) (h.passed hpassed)
    (hsame.trans (h.passed hpassed i))
  known := h.known

theorem BootInv.count (h : BootInv s past) {i : Fin n} {w : Worker} (hok : w.Ok)
    (hbefore : (s.workers i).announced = false) (hafter : w.announced = true) :
    BootInv { s.setWorker i w with readyNum := s.readyNum + 1 } past where
  ok := forall_setWorker h.ok hok
  counted := by
    have hcount := doneCount_finish hbefore hafter
    rw [← h.counted] at hcount
    exact hcount.symm
  passed hpassed := forall_setWorker (P := fun w => w.announced = true) (h.passed hpassed)
    hafter
  known := h.known

theorem BootInv.step (h : BootInv s past) {act : BootAct Regs Rdma n}
    (hstep : s.step lib act = some (s', now)) : BootInv s' (past ++ now) := by
  have hquiet : forall {act : LifeAct Regs Rdma}, s.stepLife lib act [] = some (s', now) ->
      BootInv s' (past ++ now) := by
    intro act hlife
    have hnow : now = [] := by
      rcases Option.map_eq_some_iff.mp hlife with ⟨r, _, hr⟩
      exact (Prod.mk.inj hr).2.symm
    subst hnow
    exact h.stepLife (fun hin => by cases hin) (fun _ _ hin => by cases hin) hlife
  cases act with
  | main ok =>
      simp only [Boot.step] at hstep
      split at hstep
      · split at hstep
        · next hready =>
            have hall : forall i, (s.workers i).announced = true := by
              apply card_le_doneCount_iff.mp
              rw [Fintype.card_fin, ← h.counted]
              exact hready
            have hnow : now = [.passed] := by
              rcases Option.map_eq_some_iff.mp hstep with ⟨r, _, hr⟩
              exact (Prod.mk.inj hr).2.symm
            subst hnow
            exact h.stepLife (fun _ => hall) (fun i w hin => by cases List.mem_singleton.mp hin)
              hstep
        · cases hstep
      · exact hquiet hstep
  | remove => exact hquiet hstep
  | worker i ok =>
      simp only [Boot.step] at hstep
      split at hstep
      · split at hstep
        · rcases Option.map_eq_some_iff.mp hstep with ⟨⟨w, counts⟩, hgo, hr⟩
          cases hr
          rcases Worker.goOn_ok (h.ok i) hgo with ⟨hok, hcounts, hbefore⟩
          rw [List.append_nil]
          cases counts with
          | true => exact h.count hok hbefore hcounts
          | false => exact h.keep hok (hcounts.trans hbefore.symm)
        · rcases Option.map_eq_some_iff.mp hstep with ⟨w, hfail, hr⟩
          cases hr
          rcases Worker.fail_ok (h.ok i) hfail with ⟨hok, hafter, hbefore⟩
          rw [List.append_nil]
          exact h.keep hok (hafter.trans hbefore.symm)
      · cases hstep
  | stop i =>
      simp only [Boot.step] at hstep
      split at hstep
      · next hready =>
          cases hstep
          rcases Worker.serving_ok (h.ok i) hready.2 with ⟨hannounced, hok⟩
          rw [List.append_nil]
          exact h.keep hok hannounced.symm
      · cases hstep
  | poll i w =>
      simp only [Boot.step] at hstep
      split at hstep
      · next hserving =>
          have harmed := (h.ok i).armed (Worker.serving_ok (h.ok i) hserving).1
          split at hstep
          · cases hstep
          · next id hid =>
              split at hstep
              · exact hquiet hstep
              · next hunknown =>
                  apply absurd _ hunknown
                  rw [harmed.handlers]
                  cases id <;> decide
      · cases hstep
  | enter w =>
      simp only [Boot.step] at hstep
      split at hstep
      · cases hstep
      · exact hquiet hstep
  | resume t answer => exact hquiet hstep

theorem life_step {act : BootAct Regs Rdma n} (hstep : s.step lib act = some (s', now)) :
    s'.life = s.life ∨ exists act' gone, s.life.step lib act' = some (s'.life, gone) := by
  have hlife : forall {act : LifeAct Regs Rdma} {now' : List (BootObs n)},
      s.stepLife lib act now' = some (s', now) ->
        exists act' gone, s.life.step lib act' = some (s'.life, gone) := by
    intro act now' h
    rcases Option.map_eq_some_iff.mp h with ⟨⟨life, gone⟩, hs, hr⟩
    cases hr
    exact ⟨act, gone, hs⟩
  cases act with
  | main ok =>
      simp only [Boot.step] at hstep
      split at hstep
      · split at hstep
        · exact Or.inr (hlife hstep)
        · cases hstep
      · exact Or.inr (hlife hstep)
  | remove => exact Or.inr (hlife hstep)
  | worker i ok =>
      simp only [Boot.step] at hstep
      split at hstep
      · split at hstep
        · rcases Option.map_eq_some_iff.mp hstep with ⟨r, _, hr⟩
          cases hr
          exact Or.inl rfl
        · rcases Option.map_eq_some_iff.mp hstep with ⟨r, _, hr⟩
          cases hr
          exact Or.inl rfl
      · cases hstep
  | stop i =>
      simp only [Boot.step] at hstep
      split at hstep
      · cases hstep
        exact Or.inl rfl
      · cases hstep
  | poll i w =>
      simp only [Boot.step] at hstep
      split at hstep
      · split at hstep
        · cases hstep
        · split at hstep
          · exact Or.inr (hlife hstep)
          · cases hstep
            exact Or.inl rfl
      · cases hstep
  | enter w =>
      simp only [Boot.step] at hstep
      split at hstep
      · cases hstep
      · exact Or.inr (hlife hstep)
  | resume t answer => exact Or.inr (hlife hstep)

end Steps

/-- In every order of the steps of the main thread, of any number of workers and of the
handlers: the main thread passes the barrier exactly when all workers have announced
themselves; from then on each of them has registered all callbacks and tried to post all
buffers; a worker that polls finds a callback for every request; and the globals, the main
thread and the handlers in progress are those of a run of `Lifecycle`. -/
theorem barrier_waits (lib : KernelLib Regs Rdma) {acts : List (BootAct Regs Rdma n)}
    {s : Boot Regs Rdma n} {trace : List (BootObs n)}
    (hrun : runFrom (Boot.step lib) Boot.init acts = some (s, trace)) :
    (s.Waits -> ((s.step lib (.main true)).isSome <-> forall i, (s.workers i).Armed)) ∧
      (.passed ∈ trace -> forall i, (s.workers i).Armed) ∧
      (forall i w, .unknown i w ∉ trace) ∧
      exists acts' trace', runFrom (Lifecycle.step lib) Lifecycle.init acts' =
        some (s.life, trace') := by
  have hinv : BootInv s trace :=
    runFrom_invariant_free (fun s past act s' now h hs => h.step hs) bootInv_init hrun
  have hlife : exists acts' trace', runFrom (Lifecycle.step lib) Lifecycle.init acts' =
      some (s.life, trace') := by
    have hstep : forall (s : Boot Regs Rdma n) act s' now,
        (exists acts' trace', runFrom (Lifecycle.step lib) Lifecycle.init acts' =
          some (s.life, trace')) -> s.step lib act = some (s', now) ->
            exists acts' trace', runFrom (Lifecycle.step lib) Lifecycle.init acts' =
              some (s'.life, trace') := by
      intro s act s' now h hs
      rcases h with ⟨acts', trace', hrun'⟩
      rcases life_step hs with hsame | ⟨act', gone, hs'⟩
      · rw [hsame]
        exact ⟨acts', trace', hrun'⟩
      · exact ⟨_, _, runFrom_snoc hrun' hs'⟩
    exact runFrom_preserves hstep ⟨[], [], rfl⟩ hrun
  refine ⟨fun hwaits => ?_, fun hpassed i => ?_, hinv.known, hlife⟩
  · have hready : n ≤ s.readyNum <-> forall i, (s.workers i).announced = true := by
      rw [hinv.counted, ← card_le_doneCount_iff, Fintype.card_fin]
    constructor
    · intro hpasses i
      simp only [Boot.step, if_pos hwaits] at hpasses
      split at hpasses
      · next hn => exact (hinv.ok i).armed (hready.mp hn i)
      · cases hpasses
    · intro harmed
      have hn : n ≤ s.readyNum := hready.mpr fun i => (harmed i).announced
      rcases List.head?_eq_some_iff.mp hwaits with ⟨rest, hrest⟩
      simp only [Boot.step, if_pos hwaits, if_pos hn, Boot.stepLife, Lifecycle.step, hrest,
        if_true, Option.map_some, Option.isSome_some]
  · exact (hinv.ok i).armed (hinv.passed hpassed i)

def panickedStart : List (BootAct UInt64 UInt64 2) :=
  [.main true, .main true, .main true, .main true, .worker 0 false]

theorem barrier_waits_panicked :
    exists s trace, runFrom (Boot.step plainLib) Boot.init panickedStart = some (s, trace) ∧
      s.Waits ∧ ¬ (s.step plainLib (.main true)).isSome := by
  have hobserved : (runFrom (Boot.step plainLib) Boot.init panickedStart).map
      (fun r => (decide r.1.Waits, (r.1.workers 0).announced)) = some (true, false) := by
    decide
  rcases Option.map_eq_some_iff.mp hobserved with ⟨⟨s, trace⟩, hrun, hs⟩
  have hwaits : s.Waits := of_decide_eq_true (congrArg Prod.fst hs)
  have hsilent : (s.workers 0).announced = false := congrArg Prod.snd hs
  refine ⟨s, trace, hrun, hwaits, fun hpasses => ?_⟩
  have harmed := ((barrier_waits plainLib hrun).1 hwaits).mp hpasses 0
  rw [harmed.announced] at hsilent
  cases hsilent

end Kernel
end Dmerge
