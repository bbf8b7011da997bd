import Dmerge.Kernel.RepeatedReads

/-!
# Objects of a pulled heap

A process that has pulled a heap follows the pointers of an object in it: it reads
a page, and what it has read tells which page is next.  Between its reads all
processes take their steps.  As long as the shared frames are left alone, it gets
what the owner of the heap had in its memory when it registered it.
-/

namespace Dmerge
namespace Kernel

open Foundation Memory Descriptors Producer

variable {Regs Rdma Page alpha : Type} {bufSize : Nat}

/-!
## Following the pointers of an object
-/

/-- A deployment in which a process is on its way through an object. -/
structure Traversal (Regs Rdma Page alpha : Type) (bufSize : Nat) where
  deployment : Deployment Regs Rdma Page bufSize
  left : ReadProg Nat Page alpha

inductive TraversalAct (Regs Rdma Page : Type) where
  | other (act : DeployAct Regs Rdma Page)
  | read (answer : Answers Regs Rdma)

def segmentationFault : String := "Segmentation fault"

namespace Traversal

/-- The process reads the next page, or something else happens.  A page that is not there
ends the process. -/
def step (lib : KernelLib Regs Rdma) (located : Rdma -> UInt64) (p : Process)
    (t : Traversal Regs Rdma Page alpha bufSize) :
    TraversalAct Regs Rdma Page ->
      Option (Traversal Regs Rdma Page alpha bufSize × List (DeployObs Page))
  | .other act =>
      (t.deployment.step lib located act).map fun r => ({ t with deployment := r.1 }, r.2)
  | .read answer =>
      match t.left with
      | .call n k =>
          (t.deployment.step lib located (.touch p n answer)).map fun r =>
            ({ deployment := r.1
               left :=
                match (t.deployment.touch located p n answer).1 with
                | some page => k page
                | none => .panic segmentationFault }, r.2)
      | _ => none

/-- The steps of the others are frozen, the process keeps its handle, and the other
machines can be accessed when it reads. -/
def Calm (lib : KernelLib Regs Rdma) (located : Rdma -> UInt64) (p : Process)
    (t : Traversal Regs Rdma Page alpha bufSize) : TraversalAct Regs Rdma Page -> Prop
  | .other act => t.deployment.Calm lib located act ∧ ¬ act.Closes p
  | .read answer => forall machineInfo, (answer (.accessInfoNew machineInfo)).isSome

end Traversal

/-- What a process finds in the heaps that it has pulled, by page number. -/
def Deployment.shown (located : Rdma -> UInt64) (s : Deployment Regs Rdma Page bufSize)
    (p : Process) (n : Nat) : Option Page :=
  ((s.shared located).found p n).map s.frames

structure Traversal.Heads (lib : KernelLib Regs Rdma) (located : Rdma -> UInt64) (p : Process)
    (v : alpha) (t : Traversal Regs Rdma Page alpha bufSize) : Prop where
  settled : t.deployment.Settled lib located
  opened : t.deployment.Opened p
  heads : t.left.readFrom (t.deployment.shown located p) = some v

section Steps

variable {lib : KernelLib Regs Rdma} {located : Rdma -> UInt64} {p : Process}
variable {s s' : Deployment Regs Rdma Page bufSize}

theorem shown_step (hsettled : s.Settled lib located) (hsize : bufSize < 2 ^ 64)
    (hin : s.Opened p) {act : DeployAct Regs Rdma Page} (hcalm : s.Calm lib located act)
    (hstays : ¬ act.Closes p) {now : List (DeployObs Page)}
    (hstep : s.step lib located act = some (s', now)) {v : alpha}
    {prog : ReadProg Nat Page alpha} (hv : prog.readFrom (s.shown located p) = some v) :
    s'.Settled lib located ∧ s'.Opened p ∧ prog.readFrom (s'.shown located p) = some v := by
  refine ⟨hsettled.step hsize hcalm hstep, (step_extends hin hstays hstep).1, ?_⟩
  refine ReadProg.readFrom_mono (fun n page hpage => ?_) hv
  have hshows : s.Shows located p n page := hpage
  exact hshows.step hin hcalm hstays hstep

theorem Traversal.Heads.step {v : alpha} {t t' : Traversal Regs Rdma Page alpha bufSize}
    (h : t.Heads lib located p v) (hsize : bufSize < 2 ^ 64) {act : TraversalAct Regs Rdma Page}
    (hcalm : t.Calm lib located p act) {now : List (DeployObs Page)}
    (hstep : t.step lib located p act = some (t', now)) : t'.Heads lib located p v := by
  cases act with
  | other act =>
      rcases Option.map_eq_some_iff.mp hstep with ⟨⟨s', now'⟩, hother, hr⟩
      cases hr
      rcases shown_step h.settled hsize h.opened hcalm.1 hcalm.2 hother h.heads with
        ⟨hsettled, hin, hv⟩
      exact ⟨hsettled, hin, hv⟩
  | read answer =>
      rcases t with ⟨s, left⟩
      cases left with
      | ret w => cases hstep
      | panic msg => cases hstep
      | call n k =>
          rcases Option.map_eq_some_iff.mp hstep with ⟨⟨s', now'⟩, htouch, hr⟩
          cases hr
          rcases Option.bind_eq_some_iff.mp h.heads with ⟨page, hpage, hv⟩
          have hshows : s.Shows located p n page := hpage
          have hread : (s.touch located p n answer).1 = some page :=
            (h.settled.touch_iff h.opened hcalm).mpr hshows
          have hquiet : s.Calm lib located
              (DeployAct.touch p n answer : DeployAct Regs Rdma Page) :=
            ⟨hcalm, True.intro⟩
          rcases shown_step h.settled hsize h.opened hquiet id htouch hv with
            ⟨hsettled, hin, hv'⟩
          refine ⟨hsettled, hin, ?_⟩
          simp only [hread]
          exact hv'

theorem shown_none (h : s.heaps p = []) (n : Nat) : s.shown located p n = none := by
  have hfound : (s.shared located).found p n = none := by
    unfold SharedPages.found
    by_cases hin : s.Opened p
    · rw [joined_heaps hin, h]
      rfl
    · rw [joined_none hin]
      rfl
  unfold Deployment.shown
  rw [hfound, Option.map_none]

theorem shown_attach {name : HeapName} {x : Mapping Nat FrameAddr}
    (hattach : (s.shared located).names.Step (.attach p name x) (s'.shared located).names)
    (hframes : s'.frames = s.frames) (n : Nat) :
    s'.shown located p n = (s.shown located p n).or (x.contents s.frames n) := by
  unfold Deployment.shown Mapping.contents
  rw [SharedPages.found_attach hattach, Option.map_or, hframes]

theorem pull_shown (hs : s.Sound lib located) (hsize : bufSize < 2 ^ 64)
    {hint machine : UInt32} {eagerFetch : Bool} {env : CallEnv Regs Rdma} {name : HeapName}
    (hpull : s.step lib located (.command p (.pull hint machine eagerFetch) env) =
      some (s', [.joined p name])) :
    s'.Opened p ∧ exists x, (s.shared located).names.published name = some x ∧
      forall n, s'.shown located p n = (s.shown located p n).or (x.contents s.frames n) := by
  have hopened : s.Opened p -> s'.Opened p := fun hin => (step_extends hin id hpull).1
  simp only [Deployment.step] at hpull
  split at hpull
  · next hready =>
      rw [tells_pull] at hpull
      have hreads : ReadsFor (s.reader located env.caller.answer) env :=
        ⟨rfl, fun machineInfo => rfl⟩
      have hends : PullLeaves lib s.machines p.1 p.2 hint.toUInt64 machine.toUInt64 env
          (s.reader located env.caller.answer) eagerFetch (s.memory p)
          (s.runCommand lib located p (.pull hint machine eagerFetch) env) :=
        run_syscallRmap_process hreads hready.2.1 s.machines hint.toUInt64 machine.toUInt64
          eagerFetch (s.memory p)
      split at hpull
      · next hret =>
          rcases hends.attaches hs hsize hready.1 hret with ⟨x, hnames⟩
          rcases Prod.mk.inj (Option.some.inj hpull) with ⟨hs', hobserved⟩
          have hattach : (s.shared located).names.Step
              (.attach p (machine.toUInt64, hint.toUInt64) x) (s'.shared located).names := by
            rw [← hs']
            exact hnames
          have hframes : s'.frames = s.frames := by
            rw [← hs']
          rw [← (SharedObs.joined.inj (List.cons.inj hobserved).1).2]
          exact ⟨hopened hready.1, x, hattach.attached, shown_attach hattach hframes⟩
      · cases hpull
  · cases hpull

theorem Traversal.Heads.outcome {v : alpha} {t : Traversal Regs Rdma Page alpha bufSize}
    (h : t.Heads lib located p v) :
    (forall out, t.left.outcome = some out -> out = .returned v) ∧
      (t.left.outcome = none ->
        forall answer, exists t' now, t.step lib located p (.read answer) = some (t', now)) := by
  rcases t with ⟨s, left⟩
  have hheads := h.heads
  cases left with
  | ret w =>
      cases hheads
      refine ⟨fun out hout => ?_, fun hnone => by cases hnone⟩
      cases hout
      rfl
  | panic msg => cases hheads
  | call n k =>
      refine ⟨fun out hout => (by cases hout), fun _ answer => ?_⟩
      have hin : s.Opened p := h.opened
      exact ⟨_, _, Option.map_eq_some_iff.mpr ⟨_, if_pos hin, rfl⟩⟩

end Steps

def pushedActs : List (DeployAct UInt64 UInt64 Nat) :=
  [.write (1, 28672) 5, .openHandle (1, 0), .command (1, 0) (.register 4096) smoothEnv,
    .openHandle (3, 0)]

theorem pushedActs_calm :
    RunMeets (fun s act => s.step plainLib (fun _ => 1) act)
      (Deployment.Calm plainLib fun _ => 1) smallDeployment pushedActs := by
  refine ⟨⟨True.intro, smallDeployment_shares _⟩, fun s1 _ _ => ?_⟩
  refine ⟨⟨True.intro, True.intro⟩, fun s2 _ _ => ?_⟩
  refine ⟨⟨captures_smallTask, True.intro⟩, fun s3 _ _ => ?_⟩
  exact ⟨⟨True.intro, True.intro⟩, fun s4 _ _ => True.intro⟩

def nextOfPage : ReadProg Nat Nat Nat := .call 1 fun page => .ret (page + 1)

def lateReads : List (TraversalAct UInt64 UInt64 Nat) :=
  [.other (.closeHandle (1, 0) smoothEnv), .read smoothEnv.caller.answer]

abbrev PageObs := SharedObs HeapName Process Nat Nat (Option Nat)

instance : DecidableEq PageObs := inferInstance

def secondPage : DeployObs Nat -> PageObs :=
  SharedObs.map fun x => x.2 1

theorem named_of_secondPage {trace : List (DeployObs Nat)} {p : Process} {n : HeapName}
    {v : Nat} (h : trace.map secondPage = [.named p n (some (some v))]) :
    exists heap contents, .named p n (some (heap, contents)) ∈ trace ∧
      contents 1 = some v := by
  rcases List.map_eq_singleton_iff.mp h with ⟨e, rfl, he⟩
  cases e with
  | named p' n' new =>
      rcases SharedObs.named.inj he with ⟨rfl, rfl, hnew⟩
      rcases Option.map_eq_some_iff.mp hnew with ⟨⟨heap, contents⟩, rfl, hpage⟩
      exact ⟨heap, contents, List.mem_singleton_self _, hpage⟩
  | joined p' n' => cases he
  | read p' a v' => cases he

theorem joined_of_secondPage {now : List (DeployObs Nat)} {p : Process} {n : HeapName}
    (h : now.map secondPage = [.joined p n]) : now = [.joined p n] := by
  rcases List.map_eq_singleton_iff.mp h with ⟨e, rfl, he⟩
  cases e with
  | named p' n' new => cases he
  | joined p' n' =>
      cases he
      rfl
  | read p' a v' => cases he

end Kernel
end Dmerge
