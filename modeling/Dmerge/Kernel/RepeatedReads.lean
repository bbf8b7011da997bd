import Dmerge.Kernel.DeploymentRefines

/-!
# Repeated reads

A process that has read a page reads the same page again as long as its handle
is open and the shared frames are left alone, whatever heaps it pulls in between
and whatever the other processes do.  A step only adds to the heaps that a process
has pulled, at the end, where a fault looks last.
-/

namespace Dmerge
namespace Kernel

open Foundation Memory Descriptors Producer Prog

variable {Regs Rdma Page : Type} {bufSize : Nat}

def DeployAct.Closes (p : Process) : DeployAct Regs Rdma Page -> Prop
  | .closeHandle q _ => q = p
  | _ => False

/-!
## The heaps of a handle
-/

section Pulled

variable {lib : KernelLib Regs Rdma} {s s' : ModuleState Regs Rdma bufSize}
variable {env : CallEnv Regs Rdma} {heapBase : Nat}

theorem pulledOf_handlers (h : s'.handlers = s.handlers) (self : Nat) :
    s'.pulledOf self = s.pulledOf self := by
  unfold ModuleState.pulledOf
  rw [h]

theorem RegisterEnds.pulledOf {self : Nat} {out : Outcome Int}
    (h : RegisterEnds lib s self env heapBase out s') (self' : Nat) :
    s'.pulledOf self' = s.pulledOf self' := by
  cases h with
  | recalled _ => rfl
  | exhausted _ => rfl
  | wasted _ _ => rfl
  | registered hhint hid hmeta =>
      rw [ModuleState.pulledOf_updateHandler]
      by_cases hself : self' = self
      · rw [if_pos hself, hself]
        rfl
      · rw [if_neg hself]
        rfl

theorem RemoteEnds.pulledOf (h : RemoteEnds lib s env heapBase s') (self : Nat) :
    s'.pulledOf self = s.pulledOf self := by
  cases h with
  | exhausted => rfl
  | wasted _ => rfl
  | lent hid hmeta hlent => exact pulledOf_handlers hlent.handlers self

end Pulled

/-!
## What a step adds
-/

def Deployment.Extends (p : Process) (s s' : Deployment Regs Rdma Page bufSize) : Prop :=
  s'.Opened p ∧ exists more, s'.heaps p = s.heaps p ++ more

section Extending

variable {lib : KernelLib Regs Rdma} {located : Rdma -> UInt64}
variable {s s' : Deployment Regs Rdma Page bufSize} {p : Process}

theorem heaps_eq (s : Deployment Regs Rdma Page bufSize) (p : Process) :
    s.heaps p = ((s.machines p.1).pulledOf p.2).getD [] := rfl

theorem opened_iff : s.Opened p <-> ((s.machines p.1).pulledOf p.2).isSome := by
  unfold Deployment.Opened ModuleState.pulledOf
  rw [Option.isSome_map]

theorem extends_of_same (hin : s.Opened p)
    (h : (s'.machines p.1).pulledOf p.2 = (s.machines p.1).pulledOf p.2) :
    Deployment.Extends p s s' := by
  refine ⟨?_, [], ?_⟩
  · rw [opened_iff, h]
    exact opened_iff.mp hin
  · rw [heaps_eq, heaps_eq, h, List.append_nil]

theorem extends_update (hin : s.Opened p) {machine : UInt64}
    {t : ModuleState Regs Rdma bufSize}
    (hmachines : s'.machines = Function.update s.machines machine t)
    (ht : forall self, p = (machine, self) ->
      t.pulledOf self = (s.machines machine).pulledOf self) :
    Deployment.Extends p s s' := by
  apply extends_of_same hin
  rw [hmachines]
  by_cases hp : p.1 = machine
  · subst hp
    rw [Function.update_self]
    exact ht p.2 rfl
  · rw [Function.update_of_ne hp]

theorem extends_pull (hin : s.Opened p) {q : Process} {heap : HeapDataStruct Regs Rdma}
    (hmachines : s'.machines = Function.update s.machines q.1
      ((s.machines q.1).updateHandler q.2 fun h =>
        { h with publicHeaps := h.publicHeaps ++ [heap] })) :
    Deployment.Extends p s s' := by
  by_cases hp : p = q
  · subst hp
    rcases Option.isSome_iff_exists.mp hin with ⟨handler, hhandler⟩
    have hpulled : (s'.machines p.1).pulledOf p.2 = some (handler.publicHeaps ++ [heap]) := by
      rw [hmachines, Function.update_self, ModuleState.pulledOf_updateHandler, if_pos rfl,
        hhandler, Option.map_some]
    refine ⟨?_, [heap], ?_⟩
    · rw [opened_iff, hpulled, Option.isSome_some]
    · rw [heaps_eq, heaps_eq, hpulled, Option.getD_some]
      unfold ModuleState.pulledOf
      rw [hhandler, Option.map_some, Option.getD_some]
  · apply extends_update hin hmachines
    intro self hself
    rw [ModuleState.pulledOf_updateHandler]
    have hne : self ≠ q.2 := by
      rintro rfl
      exact hp hself
    rw [if_neg hne]

theorem command_extends {q : Process} {req : Request} {env : CallEnv Regs Rdma}
    (hin : s.Opened p) (hfits : env.Fits lib)
    (hmachines : s'.machines = (s.runCommand lib located q req env).2.1.machines) :
    Deployment.Extends p s s' := by
  cases req with
  | register heapBase =>
      have hregister : exists out t st,
          s.runCommand lib located q (.register heapBase) env = (out, (st, s.memory q)) ∧
            st.machines = Function.update s.machines q.1 t ∧
              RegisterEnds lib (s.machines q.1) q.2 env heapBase.toNat out t :=
        run_register_process s.machines heapBase (s.memory q)
      rcases hregister with ⟨out, t, st, hrun, hst, hends⟩
      rw [hrun, hst] at hmachines
      exact extends_update hin hmachines fun self _ => hends.pulledOf self
  | pull heapHint machineId eagerFetch =>
      have hreads : ReadsFor (s.reader located env.caller.answer) env :=
        ⟨rfl, fun machineInfo => rfl⟩
      have hends : PullLeaves lib s.machines q.1 q.2 heapHint.toUInt64 machineId.toUInt64 env
          (s.reader located env.caller.answer) eagerFetch (s.memory q)
          (s.runCommand lib located q (.pull heapHint machineId eagerFetch) env) :=
        run_syscallRmap_process hreads hfits s.machines heapHint.toUInt64 machineId.toUInt64
          eagerFetch (s.memory q)
      generalize s.runCommand lib located q (.pull heapHint machineId eagerFetch) env = r
        at hends hmachines
      cases hends with
      | failed hout hkept hcause =>
          rw [hkept] at hmachines
          exact extends_of_same hin (by rw [hmachines])
      | pulled hoffers hpushed hloads =>
          rw [hpushed] at hmachines
          exact extends_pull hin hmachines
  | registerRemote heapBase machineId =>
      have hregister : exists out t st,
          s.runCommand lib located q (.registerRemote heapBase machineId) env =
            (out, (st, s.memory q)) ∧ st.machines = Function.update s.machines q.1 t ∧
              RemoteEnds lib (s.machines q.1) env heapBase.toNat t :=
        run_registerRemote_process s.machines heapBase machineId (s.memory q)
      rcases hregister with ⟨out, t, st, hrun, hst, hends⟩
      rw [hrun, hst] at hmachines
      exact extends_update hin hmachines fun self _ => hends.pulledOf self

theorem step_extends {act : DeployAct Regs Rdma Page} {now : List (DeployObs Page)}
    (hin : s.Opened p) (hstays : ¬ act.Closes p)
    (hstep : s.step lib located act = some (s', now)) : Deployment.Extends p s s' := by
  cases act with
  | openHandle q =>
      simp only [Deployment.step] at hstep
      split at hstep
      · cases hstep
      · next hout =>
          cases hstep
          apply extends_update hin rfl
          intro self hself
          have hne : self ≠ q.2 := by
            rintro rfl
            rw [hself] at hin
            exact hout hin
          rw [ModuleState.pulledOf_setHandler, if_neg hne]
  | command q req env =>
      simp only [Deployment.step] at hstep
      split at hstep
      · next hready =>
          cases hstep
          exact command_extends hin hready.2.1 rfl
      · cases hstep
  | touch q n answer =>
      simp only [Deployment.step] at hstep
      split at hstep
      · cases hstep
        exact extends_of_same hin rfl
      · cases hstep
  | store q n v answer =>
      simp only [Deployment.step] at hstep
      split at hstep
      · cases hstep
        exact extends_of_same hin rfl
      · cases hstep
  | write frame v =>
      cases hstep
      exact extends_of_same hin rfl
  | closeHandle q env =>
      simp only [Deployment.step] at hstep
      split at hstep
      · cases hstep
        apply extends_update hin rfl
        intro self hself
        have hne : self ≠ q.2 := by
          rintro rfl
          exact hstays hself.symm
        rw [ModuleState.pulledOf_setHandler, if_neg hne]
        exact pulledOf_handlers (handlers_close q.2 env.caller) self
      · cases hstep

end Extending

/-!
## Reading again
-/

structure Deployment.Settled (lib : KernelLib Regs Rdma) (located : Rdma -> UInt64)
    (s : Deployment Regs Rdma Page bufSize) : Prop where
  sound : s.Sound lib located
  coherent : (s.shared located).Coherent

def Deployment.Shows (located : Rdma -> UInt64) (p : Process) (n : Nat) (page : Page)
    (s : Deployment Regs Rdma Page bufSize) : Prop :=
  ((s.shared located).found p n).map s.frames = some page

/-- What is needed of a step: it is sound and frozen. -/
def Deployment.Calm (lib : KernelLib Regs Rdma) (located : Rdma -> UInt64)
    (s : Deployment Regs Rdma Page bufSize) (act : DeployAct Regs Rdma Page) : Prop :=
  act.Sound lib located bufSize ∧ s.Frozen located act

section Reads

variable {lib : KernelLib Regs Rdma} {located : Rdma -> UInt64}
variable {s s' : Deployment Regs Rdma Page bufSize} {p : Process} {n : Nat} {page : Page}
variable {act : DeployAct Regs Rdma Page} {now : List (DeployObs Page)}

theorem settled_init (lib : KernelLib Regs Rdma) (located : Rdma -> UInt64)
    (pool : Pool bufSize) (frames : FrameAddr -> Page) :
    (Deployment.init pool frames : Deployment Regs Rdma Page bufSize).Settled lib located where
  sound := sound_init lib located pool frames
  coherent _ _ _ hin _ := by cases hin

theorem Deployment.Settled.step (h : s.Settled lib located) (hsize : bufSize < 2 ^ 64)
    (hcalm : s.Calm lib located act) (hstep : s.step lib located act = some (s', now)) :
    s'.Settled lib located := by
  rcases step_shared True hsize h.sound hcalm.1 (fun _ => hcalm.2) hstep with ⟨hsound, hrun⟩
  exact ⟨hsound, hrun.preserves (fun _ _ _ hc hs => (hs.snapshots hc).1) h.coherent⟩

theorem found_extends (hin : s.Opened p) (h : Deployment.Extends p s s') {frame : FrameAddr}
    (hfound : (s.shared located).found p n = some frame) :
    (s'.shared located).found p n = some frame := by
  rcases h with ⟨hopened, more, hheaps⟩
  unfold SharedPages.found at hfound ⊢
  rw [joined_heaps hin, Option.getD_some] at hfound
  rw [joined_heaps hopened, Option.getD_some, hheaps, List.map_append, List.findSome?_append,
    hfound, Option.some_or]

theorem found_shares (hin : s.Opened p) {frame : FrameAddr}
    (hfound : (s.shared located).found p n = some frame) :
    (s.shared located).Shares frame := by
  unfold SharedPages.found at hfound
  rw [joined_heaps hin, Option.getD_some] at hfound
  rcases List.exists_of_findSome?_eq_some hfound with ⟨q, hq, htarget⟩
  exact Or.inr ⟨p, _, q, n, joined_heaps hin, hq, htarget⟩

theorem frames_frozen (hcalm : s.Calm lib located act)
    (hstep : s.step lib located act = some (s', now)) {frame : FrameAddr}
    (hshares : (s.shared located).Shares frame) : s'.frames frame = s.frames frame := by
  cases act with
  | write other v =>
      cases hstep
      have hne : frame ≠ other := by
        rintro rfl
        exact hcalm.2 hshares
      exact Function.update_of_ne hne _ _
  | openHandle q =>
      simp only [Deployment.step] at hstep
      split at hstep <;> cases hstep
      rfl
  | command q req env =>
      simp only [Deployment.step] at hstep
      split at hstep <;> cases hstep
      rfl
  | touch q k answer =>
      simp only [Deployment.step] at hstep
      split at hstep <;> cases hstep
      rfl
  | store q k v answer => exact hcalm.2.elim
  | closeHandle q env =>
      simp only [Deployment.step] at hstep
      split at hstep <;> cases hstep
      rfl

theorem Deployment.Shows.step (h : s.Shows located p n page) (hin : s.Opened p)
    (hcalm : s.Calm lib located act) (hstays : ¬ act.Closes p)
    (hstep : s.step lib located act = some (s', now)) : s'.Shows located p n page := by
  rcases Option.map_eq_some_iff.mp h with ⟨frame, hfound, hpage⟩
  unfold Deployment.Shows
  rw [found_extends hin (step_extends hin hstays hstep) hfound, Option.map_some,
    frames_frozen hcalm hstep (found_shares hin hfound), hpage]

theorem Deployment.Settled.touch_iff (h : s.Settled lib located) (hin : s.Opened p)
    {answer : Answers Regs Rdma}
    (haccess : forall machineInfo, (answer (.accessInfoNew machineInfo)).isSome) :
    (s.touch located p n answer).1 = some page <-> s.Shows located p n page := by
  rw [touch_view hin haccess, h.coherent.view_eq (isSome_joined hin)]
  rfl

end Reads

/-- Reads repeat: over any run in which the shared frames are left alone, no process writes
to a page of its own, nothing is prefetched and the handle stays open, a page that a process
has read is the same when it is read again, whatever is registered, pulled and closed in
between. -/
theorem reads_repeat (lib : KernelLib Regs Rdma) (located : Rdma -> UInt64)
    (pool : Pool bufSize) (frames : FrameAddr -> Page) (hsize : bufSize < 2 ^ 64)
    {before between : List (DeployAct Regs Rdma Page)}
    {s s' : Deployment Regs Rdma Page bufSize} {trace trace' : List (DeployObs Page)}
    (hcalm : RunMeets (fun s act => s.step lib located act) (Deployment.Calm lib located)
      (Deployment.init pool frames) before)
    (hrun : runFrom (fun s act => s.step lib located act) (Deployment.init pool frames) before =
      some (s, trace))
    {p : Process} (hin : s.Opened p)
    (hcalm' : RunMeets (fun s act => s.step lib located act)
      (fun s act => s.Calm lib located act ∧ ¬ act.Closes p) s between)
    (hrun' : runFrom (fun s act => s.step lib located act) s between = some (s', trace'))
    {n : Nat} {page : Page} {answer answer' : Answers Regs Rdma}
    (haccess : forall machineInfo, (answer (.accessInfoNew machineInfo)).isSome)
    (haccess' : forall machineInfo, (answer' (.accessInfoNew machineInfo)).isSome)
    (hread : (s.touch located p n answer).1 = some page) :
    (s'.touch located p n answer').1 = some page := by
  have hsettled : s.Settled lib located :=
    runFrom_preserves_of_meets (fun s act s' now h hc hs => h.step hsize hc hs)
      (settled_init lib located pool frames) hcalm hrun
  have hstep : forall (s : Deployment Regs Rdma Page bufSize) act s' now,
      s.Settled lib located ∧ s.Opened p ∧ s.Shows located p n page ->
        s.Calm lib located act ∧ ¬ act.Closes p -> s.step lib located act = some (s', now) ->
          s'.Settled lib located ∧ s'.Opened p ∧ s'.Shows located p n page := by
    intro s act s' now h hc hs
    rcases h with ⟨hsettled, hin, hshows⟩
    exact ⟨hsettled.step hsize hc.1 hs, (step_extends hin hc.2 hs).1,
      hshows.step hin hc.1 hc.2 hs⟩
  have hstart := (hsettled.touch_iff hin haccess).mp hread
  rcases runFrom_preserves_of_meets hstep ⟨hsettled, hin, hstart⟩ hcalm' hrun' with
    ⟨hsettled', hin', hshows'⟩
  exact (hsettled'.touch_iff hin' haccess').mpr hshows'

def pulledActs : List (DeployAct UInt64 UInt64 Nat) :=
  [.write (1, 28672) 5, .openHandle (1, 0), .command (1, 0) (.register 4096) smoothEnv,
    .openHandle (3, 0), .command (3, 0) (.pull 1 1 false) smoothEnv]

/-- The handle of machine 1 is closed, opened again and used for another registration, which
the process of machine 3 pulls over the first one. -/
def repulledActs : List (DeployAct UInt64 UInt64 Nat) :=
  [.closeHandle (1, 0) smoothEnv, .openHandle (1, 0),
    .command (1, 0) (.register 4096) smoothEnv, .command (3, 0) (.pull 2 1 false) smoothEnv]

theorem pulledActs_calm :
    RunMeets (fun s act => s.step plainLib (fun _ => 1) act)
      (Deployment.Calm plainLib fun _ => 1) smallDeployment pulledActs := by
  refine ⟨⟨True.intro, smallDeployment_shares _⟩, fun s1 _ _ => ?_⟩
  refine ⟨⟨True.intro, True.intro⟩, fun s2 _ _ => ?_⟩
  refine ⟨⟨captures_smallTask, True.intro⟩, fun s3 _ _ => ?_⟩
  refine ⟨⟨True.intro, True.intro⟩, fun s4 _ _ => ?_⟩
  exact ⟨⟨True.intro, rfl⟩, fun s5 _ _ => True.intro⟩

theorem repulledActs_calm (s : Deployment UInt64 UInt64 Nat 128) :
    RunMeets (fun s act => s.step plainLib (fun _ => 1) act)
      (fun s act => s.Calm plainLib (fun _ => 1) act ∧ ¬ act.Closes (3, 0)) s repulledActs := by
  have hother : ((1, 0) : Process) ≠ (3, 0) := by decide
  refine ⟨⟨⟨True.intro, True.intro⟩, hother⟩, fun s1 _ _ => ?_⟩
  refine ⟨⟨⟨True.intro, True.intro⟩, id⟩, fun s2 _ _ => ?_⟩
  refine ⟨⟨⟨captures_smallTask, True.intro⟩, id⟩, fun s3 _ _ => ?_⟩
  exact ⟨⟨⟨True.intro, rfl⟩, id⟩, fun s4 _ _ => True.intro⟩

theorem reads_repeat_repulled :
    exists s trace s' trace',
      runFrom (fun s act => s.step plainLib (fun _ => 1) act) smallDeployment pulledActs =
          some (s, trace) ∧
        runFrom (fun s act => s.step plainLib (fun _ => 1) act) s repulledActs =
          some (s', trace') ∧ (s'.heaps (3, 0)).length = 2 ∧
        (s'.touch (fun _ => 1) (3, 0) 1 smoothEnv.caller.answer).1 = some 5 := by
  have hobserved :
      ((runFrom (fun s act => s.step plainLib (fun _ => 1) act) smallDeployment
        pulledActs).bind fun r =>
          (runFrom (fun s act => s.step plainLib (fun _ => 1) act) r.1 repulledActs).map
            fun r' => (decide (r.1.Opened (3, 0)),
              (r.1.touch (fun _ => 1) (3, 0) 1 smoothEnv.caller.answer).1,
                (r'.1.heaps (3, 0)).length)) = some (true, some 5, 2) := by
    decide +kernel
  rcases Option.bind_eq_some_iff.mp hobserved with ⟨⟨s, trace⟩, hrun, hlater⟩
  rcases Option.map_eq_some_iff.mp hlater with ⟨⟨s', trace'⟩, hrun', hseen⟩
  have hin : s.Opened (3, 0) := of_decide_eq_true (congrArg Prod.fst hseen)
  have hread : (s.touch (fun _ => 1) (3, 0) 1 smoothEnv.caller.answer).1 = some 5 :=
    congrArg (fun o => o.2.1) hseen
  exact ⟨s, trace, s', trace', hrun, hrun', congrArg (fun o => o.2.2) hseen,
    reads_repeat plainLib (fun _ => 1) (Pool.zeroed 128) (fun _ => 0) (by decide)
      pulledActs_calm hrun hin (repulledActs_calm s) hrun' (fun _ => rfl) (fun _ => rfl) hread⟩

end Kernel
end Dmerge
