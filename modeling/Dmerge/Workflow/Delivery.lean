import Dmerge.Foundation.Run
import Dmerge.Workflow.Barrier

/-!
# Deliveries to a joining service

The upstream workers of a workflow send one event each when they finish.  The
service that joins them runs in several processes, and each of them has its own
`upstream_info`.  An event is delivered to any process, at any time after its
worker has finished, and may be delivered again.
-/

namespace Dmerge
namespace Workflow

open Foundation

/-- A stage that waits for the workers before it; `UPSTREAM_NUM` is their number. -/
structure Upstream (Wf Body : Type) where
  app : App
  /-- The type of the events that the workers send. -/
  tp : String
  num : Nat
  body : Wf -> Nat -> Body
  waits : (app.dispatch tp).ifWait = true
  counted : app.streamCnt = num
  positive : 1 ≤ num

inductive ServiceAct (Wf : Type) where
  | finish (wf : Wf) (worker : Nat)
  | deliver (pid : Nat) (wf : Wf) (worker : Nat)

/-- What is seen of a run: deliveries, and calls of handlers with the workers that have
finished by then. -/
inductive ServiceEvent (Wf Body : Type) where
  | delivered (pid : Nat) (wf : Wf) (worker : Nat)
  | ran (pid : Nat) (call : Call (Sent Wf Body)) (finished : List (Wf × Nat))
  deriving DecidableEq, Repr

structure Service (Wf Body : Type) where
  finished : List (Wf × Nat)
  processes : List (Process (Sent Wf Body) Wf)

variable {Wf Body : Type}

namespace Upstream

def stage (u : Upstream Wf Body) : String := (u.app.dispatch u.tp).name

def sent (u : Upstream Wf Body) (wf : Wf) (worker : Nat) : Sent Wf Body where
  wfId := wf
  worker := worker
  body := u.body wf worker

def event (u : Upstream Wf Body) (wf : Wf) (worker : Nat) : CloudEvent (Sent Wf Body) where
  tp := u.tp
  data := u.sent wf worker

theorem joinKey_event (u : Upstream Wf Body) (wf : Wf) (worker : Nat) :
    joinKey u.app (u.event wf worker) = some (u.stage, wf) :=
  if_pos ⟨u.waits, rfl, Nat.succ_pos 1⟩

theorem nodup_of_perm_sent (u : Upstream Wf Body) (wf : Wf) {workers : List Nat}
    (h : (workers.map (u.sent wf)).Perm ((List.range u.num).map (u.sent wf))) :
    workers.Nodup := by
  have hworkers := h.map fun m => m.worker
  rw [List.map_map, List.map_map] at hworkers
  have hid : (fun m : Sent Wf Body => m.worker) ∘ u.sent wf = id := rfl
  rw [hid, List.map_id, List.map_id] at hworkers
  exact hworkers.nodup_iff.mpr List.nodup_range

theorem perm_sent (u : Upstream Wf Body) (wf : Wf) {workers : List Nat}
    (hnodup : workers.Nodup) (hlength : workers.length = u.num)
    (hlt : forall worker, worker ∈ workers -> worker < u.num) :
    (workers.map (u.sent wf)).Perm ((List.range u.num).map (u.sent wf)) := by
  have hsub : workers ⊆ List.range u.num :=
    fun worker h => List.mem_range.mpr (hlt worker h)
  apply List.Perm.map
  apply (List.subperm_of_subset hnodup hsub).perm_of_length_le
  rw [List.length_range]
  exact Nat.le_of_eq hlength.symm

end Upstream

/-!
## One process among others
-/

def routed (u : Upstream Wf Body) (pid : Nat) (past : List (ServiceEvent Wf Body)) :
    List (CloudEvent (Sent Wf Body)) :=
  past.filterMap fun
    | .delivered pid' wf worker => if pid' = pid then some (u.event wf worker) else none
    | .ran _ _ _ => none

def callsOf (pid : Nat) (past : List (ServiceEvent Wf Body)) : List (Call (Sent Wf Body)) :=
  past.filterMap fun
    | .ran pid' c _ => if pid' = pid then some c else none
    | .delivered _ _ _ => none

section Routed

variable (u : Upstream Wf Body) (pid : Nat) (past later : List (ServiceEvent Wf Body))

theorem routed_append :
    routed u pid (past ++ later) = routed u pid past ++ routed u pid later :=
  List.filterMap_append

theorem callsOf_append :
    callsOf pid (past ++ later) = callsOf pid past ++ callsOf pid later :=
  List.filterMap_append

theorem mem_routed {m : Sent Wf Body} (hm : m ∈ joined u.app (routed u pid past)) :
    exists wf worker, .delivered pid wf worker ∈ past ∧ m = u.sent wf worker := by
  rcases List.mem_map.mp hm with ⟨e, he, rfl⟩
  rcases List.mem_filterMap.mp (List.mem_filter.mp he).1 with ⟨x, hx, hsome⟩
  cases x with
  | ran pid' c finished => cases hsome
  | delivered pid' wf worker =>
      simp only at hsome
      split at hsome
      case isTrue hpid =>
        cases hsome
        subst hpid
        exact ⟨wf, worker, hx, rfl⟩
      case isFalse => cases hsome

end Routed

def observed (pid : Nat) (wf : Wf) (worker : Nat) (calls : List (Call (Sent Wf Body)))
    (finished : List (Wf × Nat)) : List (ServiceEvent Wf Body) :=
  .delivered pid wf worker :: calls.map fun c => .ran pid c finished

section Observed

variable (u : Upstream Wf Body) {pid pid' : Nat} (wf : Wf) (worker : Nat)
  (calls : List (Call (Sent Wf Body))) (finished : List (Wf × Nat))

theorem routed_observed :
    routed u pid (observed pid wf worker calls finished) = [u.event wf worker] := by
  simp [routed, observed, List.filterMap_map]

theorem routed_observed_of_ne (h : pid ≠ pid') :
    routed u pid' (observed pid wf worker calls finished) = [] := by
  simp [routed, observed, List.filterMap_map, h]

theorem callsOf_observed : callsOf pid (observed pid wf worker calls finished) = calls := by
  simp [callsOf, observed, List.filterMap_map]

theorem callsOf_observed_of_ne (h : pid ≠ pid') :
    callsOf pid' (observed pid wf worker calls finished) = [] := by
  simp [callsOf, observed, List.filterMap_map, h]

end Observed

/-!
## The service
-/

namespace Service

/-- `WEB_WORKER` processes start. -/
def init (webWorker : Nat) : Service Wf Body where
  finished := []
  processes := List.replicate webWorker Process.init

variable [DecidableEq Wf]

def step (u : Upstream Wf Body) (s : Service Wf Body) :
    ServiceAct Wf -> Option (Service Wf Body × List (ServiceEvent Wf Body))
  | .finish wf worker =>
      if worker < u.num ∧ (wf, worker) ∉ s.finished then
        some ({ s with finished := (wf, worker) :: s.finished }, [])
      else none
  | .deliver pid wf worker =>
      match s.processes[pid]? with
      | none => none
      | some p =>
          if (wf, worker) ∈ s.finished then
            let after := handleCe u.app p (u.event wf worker)
            some ({ s with processes := s.processes.set pid after.2 },
              observed pid wf worker (callsIn after.1) s.finished)
          else none

end Service

/-!
## What a run delivers and what it hands over
-/

variable [DecidableEq Wf]

def deliveries (pid : Nat) (wf : Wf) (past : List (ServiceEvent Wf Body)) : List Nat :=
  past.filterMap fun
    | .delivered pid' wf' worker => if pid' = pid ∧ wf' = wf then some worker else none
    | .ran _ _ _ => none

/-- The calls of the waiting handler for a workflow: the process, the batch, and the workers
that have finished. -/
def runsOf (u : Upstream Wf Body) (wf : Wf) (past : List (ServiceEvent Wf Body)) :
    List (Nat × List (Sent Wf Body) × List (Wf × Nat)) :=
  past.filterMap fun
    | .ran pid c finished =>
        (c.batchOf u.stage wf).map fun metas => (pid, metas, finished)
    | .delivered _ _ _ => none

/-- The waiting handler runs once for the workflow, with one event of each worker, when all
of them have finished. -/
def JoinsOnce (u : Upstream Wf Body) (wf : Wf) (past : List (ServiceEvent Wf Body)) : Prop :=
  exists pid metas finished, runsOf u wf past = [(pid, metas, finished)] ∧
    metas.Perm ((List.range u.num).map (u.sent wf)) ∧
      forall worker, worker < u.num -> (wf, worker) ∈ finished

/-- One process gets enough events of the workflow for one batch and not for two, the first
of them from different workers, and no other process gets enough for a batch. -/
def Gathered (u : Upstream Wf Body) (wf : Wf) (past : List (ServiceEvent Wf Body)) : Prop :=
  exists pid, u.num ≤ (deliveries pid wf past).length ∧
    (deliveries pid wf past).length < 2 * u.num ∧
      ((deliveries pid wf past).take u.num).Nodup ∧
        forall pid', pid' ≠ pid -> (deliveries pid' wf past).length < u.num

section Views

variable (u : Upstream Wf Body) (pid : Nat) (wf : Wf) (past later : List (ServiceEvent Wf Body))

theorem deliveries_append :
    deliveries pid wf (past ++ later) = deliveries pid wf past ++ deliveries pid wf later :=
  List.filterMap_append

theorem runsOf_append :
    runsOf u wf (past ++ later) = runsOf u wf past ++ runsOf u wf later :=
  List.filterMap_append

theorem arrivals_routed :
    arrivals u.app u.stage wf (routed u pid past) =
      (deliveries pid wf past).map (u.sent wf) := by
  induction past using List.reverseRecOn with
  | nil => rfl
  | append_singleton past e ih =>
      rw [routed_append, deliveries_append, List.map_append, <- ih]
      cases e with
      | ran pid' c finished => simp [routed, deliveries]
      | delivered pid' wf' worker =>
          by_cases hpid : pid' = pid
          · have hrouted : routed u pid [.delivered pid' wf' worker] = [u.event wf' worker] := by
              simp [routed, hpid]
            rw [hrouted]
            by_cases hwf : wf' = wf
            · subst hwf
              rw [arrivals_append _ (u.joinKey_event wf' worker)]
              simp [deliveries, hpid, Upstream.event]
            · rw [arrivals_append_of_ne]
              · simp [deliveries, hwf]
              · rw [u.joinKey_event]
                intro heq
                cases heq
                exact hwf rfl
          · simp [routed, deliveries, hpid]

theorem runsOf_filter :
    ((runsOf u wf past).filter fun r => r.1 = pid).map (fun r => r.2.1) =
      (callsOf pid past).filterMap (Call.batchOf u.stage wf) := by
  induction past using List.reverseRecOn with
  | nil => rfl
  | append_singleton past e ih =>
      rw [runsOf_append, callsOf_append, List.filter_append, List.map_append,
        List.filterMap_append, ih]
      congr 1
      cases e with
      | delivered pid' wf' worker => rfl
      | ran pid' c finished =>
          by_cases hpid : pid' = pid
          · cases hbatch : c.batchOf u.stage wf with
            | none => simp [runsOf, callsOf, hpid, hbatch]
            | some metas => simp [runsOf, callsOf, hpid, hbatch]
          · cases hbatch : c.batchOf u.stage wf with
            | none => simp [runsOf, callsOf, hpid, hbatch]
            | some metas => simp [runsOf, callsOf, hpid, hbatch]

end Views

/-!
## The invariant
-/

/-- Each process is where its own events have brought it, and what it has handed over came
from workers that had finished. -/
structure ServiceInv (u : Upstream Wf Body) (s : Service Wf Body)
    (past : List (ServiceEvent Wf Body)) : Prop where
  served : forall pid, serve u.app (routed u pid past) =
    { process := s.processes.getD pid Process.init, calls := callsOf pid past }
  sent : forall pid wf worker, .delivered pid wf worker ∈ past -> (wf, worker) ∈ s.finished
  bounded : forall wf worker, (wf, worker) ∈ s.finished -> worker < u.num
  ran : forall pid c finished, .ran pid c finished ∈ past ->
    forall metas, c.metas? = some metas -> forall m, m ∈ metas -> (m.wfId, m.worker) ∈ finished

section Steps

variable {u : Upstream Wf Body} {s s' : Service Wf Body}
  {past now : List (ServiceEvent Wf Body)}

theorem serviceInv_init (u : Upstream Wf Body) (webWorker : Nat) :
    ServiceInv u (Service.init webWorker) [] where
  served pid := by
    have hprocess : (List.replicate webWorker (Process.init : Process (Sent Wf Body) Wf)).getD
        pid Process.init = Process.init := by
      rw [List.getD_eq_getElem?_getD, List.getElem?_replicate]
      split <;> rfl
    unfold Service.init
    rw [hprocess]
    rfl
  sent pid wf worker h := by cases h
  bounded wf worker h := by cases h
  ran pid c finished h := by cases h

theorem ServiceInv.finish {wf : Wf} {worker : Nat} (hinv : ServiceInv u s past)
    (hworker : worker < u.num) :
    ServiceInv u { s with finished := (wf, worker) :: s.finished } past where
  served := hinv.served
  sent pid wf' worker' h := List.mem_cons_of_mem _ (hinv.sent pid wf' worker' h)
  bounded wf' worker' h := by
    cases List.mem_cons.mp h with
    | inl heq =>
        cases heq
        exact hworker
    | inr hmem => exact hinv.bounded wf' worker' hmem
  ran := hinv.ran

theorem mem_batch_delivered {calls : List (Call (Sent Wf Body))} {p : Process (Sent Wf Body) Wf}
    {pid : Nat} (hserved : serve u.app (routed u pid past) = { process := p, calls := calls })
    {c : Call (Sent Wf Body)} (hc : c ∈ calls) {metas : List (Sent Wf Body)}
    (hmetas : c.metas? = some metas) {m : Sent Wf Body} (hm : m ∈ metas) :
    exists wf worker, .delivered pid wf worker ∈ past ∧ m = u.sent wf worker := by
  have hacc := serve_accounts u.num u.positive u.counted (routed u pid past)
  rw [hserved] at hacc
  apply mem_routed
  apply hacc.total.mem_iff.mp
  have hbatch : metas ∈ calls.filterMap Call.metas? := List.mem_filterMap.mpr ⟨c, hc, hmetas⟩
  exact List.mem_flatten.mpr ⟨metas, List.mem_append_left _ hbatch, hm⟩

theorem ServiceInv.deliver {pid : Nat} {wf : Wf} {worker : Nat} (hinv : ServiceInv u s past)
    (hstep : s.step u (.deliver pid wf worker) = some (s', now)) :
    ServiceInv u s' (past ++ now) := by
  simp only [Service.step] at hstep
  cases hp : s.processes[pid]? with
  | none =>
      rw [hp] at hstep
      cases hstep
  | some p =>
      rw [hp] at hstep
      simp only at hstep
      split at hstep
      case isFalse => cases hstep
      case isTrue hfinished =>
        cases hstep
        have hlt : pid < s.processes.length := by
          rcases List.getElem?_eq_some_iff.mp hp with ⟨hlt, _⟩
          exact hlt
        have hserved : forall pid', serve u.app (routed u pid' (past ++
            observed pid wf worker (callsIn (handleCe u.app p (u.event wf worker)).1)
              s.finished)) =
            { process := (s.processes.set pid
                (handleCe u.app p (u.event wf worker)).2).getD pid' Process.init,
              calls := callsOf pid' (past ++
                observed pid wf worker (callsIn (handleCe u.app p (u.event wf worker)).1)
                  s.finished) } := by
          intro pid'
          have hbefore := hinv.served pid'
          rw [routed_append, callsOf_append]
          by_cases hpid : pid = pid'
          · subst hpid
            have hat : s.processes.getD pid Process.init = p := by
              rw [List.getD_eq_getElem?_getD, hp]
              rfl
            rw [routed_observed, callsOf_observed, serve_append, hbefore, hat,
              List.getD_eq_getElem?_getD, List.getElem?_set_self hlt]
            rfl
          · rw [routed_observed_of_ne _ _ _ _ _ hpid, callsOf_observed_of_ne _ _ _ _ hpid,
              List.append_nil, List.append_nil, List.getD_eq_getElem?_getD,
              List.getElem?_set_ne hpid, <- List.getD_eq_getElem?_getD]
            exact hbefore
        have hsent : forall pid' wf' worker', .delivered pid' wf' worker' ∈ past ++
            observed pid wf worker (callsIn (handleCe u.app p (u.event wf worker)).1)
              s.finished -> (wf', worker') ∈ s.finished := by
          intro pid' wf' worker' h
          cases List.mem_append.mp h with
          | inl hpast => exact hinv.sent pid' wf' worker' hpast
          | inr hnow =>
              cases List.mem_cons.mp hnow with
              | inl heq =>
                  cases heq
                  exact hfinished
              | inr hran =>
                  rcases List.mem_map.mp hran with ⟨c, _, heq⟩
                  cases heq
        constructor
        · exact hserved
        · exact hsent
        · exact hinv.bounded
        · intro pid' c finished h metas hmetas m hm
          cases List.mem_append.mp h with
          | inl hpast => exact hinv.ran pid' c finished hpast metas hmetas m hm
          | inr hnow =>
              cases List.mem_cons.mp hnow with
              | inl heq => cases heq
              | inr hran =>
                  rcases List.mem_map.mp hran with ⟨c', hc', heq⟩
                  cases heq
                  have hcalls : c ∈ callsOf pid (past ++
                      observed pid wf worker
                        (callsIn (handleCe u.app p (u.event wf worker)).1) s.finished) := by
                    rw [callsOf_append, callsOf_observed]
                    exact List.mem_append_right _ hc'
                  rcases mem_batch_delivered (hserved pid) hcalls hmetas hm with
                    ⟨wf', worker', hdelivered, rfl⟩
                  exact hsent pid wf' worker' hdelivered

theorem ServiceInv.step {act : ServiceAct Wf} (hinv : ServiceInv u s past)
    (hstep : s.step u act = some (s', now)) : ServiceInv u s' (past ++ now) := by
  cases act with
  | deliver pid wf worker => exact hinv.deliver hstep
  | finish wf worker =>
      simp only [Service.step] at hstep
      split at hstep
      case isFalse => cases hstep
      case isTrue hnew =>
        cases hstep
        rw [List.append_nil]
        exact hinv.finish hnew.1

end Steps

theorem serviceInv_run {u : Upstream Wf Body} {webWorker : Nat} {acts : List (ServiceAct Wf)}
    {s : Service Wf Body} {past : List (ServiceEvent Wf Body)}
    (hrun : runFrom (Service.step u) (Service.init webWorker) acts = some (s, past)) :
    ServiceInv u s past := by
  have hstep : forall (s : Service Wf Body) past a s' now, ServiceInv u s past ->
      Service.step u s a = some (s', now) -> ServiceInv u s' (past ++ now) :=
    fun s past a s' now hinv hs => hinv.step hs
  exact runFrom_invariant_free hstep (serviceInv_init u webWorker) hrun

/-!
## When a workflow is joined once
-/

section Joins

variable {u : Upstream Wf Body} {s : Service Wf Body} {past : List (ServiceEvent Wf Body)}

theorem ServiceInv.batches (hinv : ServiceInv u s past) (pid : Nat) (wf : Wf) :
    ((runsOf u wf past).filter fun r => r.1 = pid).map (fun r => r.2.1) =
      fullBlocks u.num ((deliveries pid wf past).map (u.sent wf)) := by
  have hacc := serve_accounts u.num u.positive u.counted (routed u pid past)
  rw [hinv.served pid] at hacc
  rw [runsOf_filter, <- arrivals_routed]
  exact hacc.batches u.stage wf

theorem ServiceInv.length_runs (hinv : ServiceInv u s past) (pid : Nat) (wf : Wf) :
    ((runsOf u wf past).filter fun r => r.1 = pid).length =
      (deliveries pid wf past).length / u.num := by
  have h := congrArg List.length (hinv.batches pid wf)
  rw [List.length_map, length_fullBlocks, List.length_map] at h
  exact h

theorem mem_runsOf {wf : Wf} {r : Nat × List (Sent Wf Body) × List (Wf × Nat)}
    (hr : r ∈ runsOf u wf past) :
    exists c, .ran r.1 c r.2.2 ∈ past ∧ c.metas? = some r.2.1 := by
  rcases List.mem_filterMap.mp hr with ⟨e, he, hsome⟩
  cases e with
  | delivered pid wf' worker => cases hsome
  | ran pid c finished =>
      rcases Option.map_eq_some_iff.mp hsome with ⟨metas, hbatch, rfl⟩
      refine ⟨c, he, ?_⟩
      cases c with
      | one handler m => cases hbatch
      | batch handler metas' =>
          simp only [Call.batchOf] at hbatch
          split at hbatch
          · exact hbatch
          · cases hbatch

theorem mem_deliveries {pid : Nat} {wf : Wf} {worker : Nat}
    (h : worker ∈ deliveries pid wf past) : .delivered pid wf worker ∈ past := by
  rcases List.mem_filterMap.mp h with ⟨e, he, hsome⟩
  cases e with
  | ran pid' c finished => cases hsome
  | delivered pid' wf' worker' =>
      simp only at hsome
      split at hsome
      case isTrue hkey =>
        rcases hkey with ⟨rfl, rfl⟩
        cases hsome
        exact he
      case isFalse => cases hsome

theorem ServiceInv.gathered (hinv : ServiceInv u s past) {wf : Wf}
    (h : JoinsOnce u wf past) : Gathered u wf past := by
  rcases h with ⟨pid, metas, finished, hruns, hperm, _⟩
  have hcount : forall pid', (deliveries pid' wf past).length / u.num =
      if pid = pid' then 1 else 0 := by
    intro pid'
    rw [<- hinv.length_runs, hruns]
    by_cases hpid : pid = pid'
    · simp [hpid]
    · simp [hpid]
  have hone : (deliveries pid wf past).length / u.num = 1 := by
    rw [hcount, if_pos rfl]
  have hbounds := (Nat.div_eq_iff u.positive).mp hone
  have hpositive := u.positive
  have hbatch : metas = ((deliveries pid wf past).take u.num).map (u.sent wf) := by
    have hblocks := hinv.batches pid wf
    rw [hruns, fullBlocks_one (by rw [List.length_map]; exact hone), <- List.map_take] at hblocks
    simpa using hblocks
  refine ⟨pid, by omega, by omega, ?_, fun pid' hne => ?_⟩
  · apply u.nodup_of_perm_sent wf
    rw [<- hbatch]
    exact hperm
  · have hzero : (deliveries pid' wf past).length / u.num = 0 := by
      rw [hcount, if_neg hne.symm]
    exact (Nat.div_eq_zero_iff_lt u.positive).mp hzero

theorem ServiceInv.joins_once (hinv : ServiceInv u s past) {wf : Wf}
    (h : Gathered u wf past) : JoinsOnce u wf past := by
  rcases h with ⟨pid, hle, hlt, hnodup, hothers⟩
  have hone : (deliveries pid wf past).length / u.num = 1 := by
    apply (Nat.div_eq_iff u.positive).mpr
    omega
  -- Every call for the workflow is made by this process.
  have hall : forall r, r ∈ runsOf u wf past -> r.1 = pid := by
    intro r hr
    by_contra hne
    have hzero := hinv.length_runs r.1 wf
    rw [Nat.div_eq_of_lt (hothers r.1 hne)] at hzero
    have hnil := List.length_eq_zero_iff.mp hzero
    have hmem : r ∈ (runsOf u wf past).filter fun r' => r'.1 = r.1 :=
      List.mem_filter.mpr ⟨hr, by simp⟩
    rw [hnil] at hmem
    cases hmem
  have hblocks := hinv.batches pid wf
  rw [fullBlocks_one (by rw [List.length_map]; exact hone), <- List.map_take,
    List.filter_eq_self.mpr (by simpa using hall)] at hblocks
  rcases List.map_eq_singleton_iff.mp hblocks with ⟨⟨pid', metas, finished⟩, hruns, hmetas⟩
  have hperm : metas.Perm ((List.range u.num).map (u.sent wf)) := by
    simp only at hmetas
    rw [hmetas]
    apply u.perm_sent wf hnodup
    · rw [List.length_take]
      omega
    · intro worker hworker
      apply hinv.bounded wf worker
      exact hinv.sent pid wf worker (mem_deliveries (List.mem_of_mem_take hworker))
  refine ⟨pid', metas, finished, hruns, hperm, fun worker hworker => ?_⟩
  have hr : (pid', metas, finished) ∈ runsOf u wf past := by
    rw [hruns]
    exact List.mem_cons_self
  rcases mem_runsOf hr with ⟨c, hran, hc⟩
  have hmem : u.sent wf worker ∈ metas :=
    hperm.mem_iff.mpr (List.mem_map_of_mem (List.mem_range.mpr hworker))
  exact hinv.ran pid' c finished hran metas hc _ hmem

end Joins

/-- The join waits for all workers and runs once, exactly when their events are gathered in
one process. -/
theorem joins_once_iff (u : Upstream Wf Body) (webWorker : Nat) {acts : List (ServiceAct Wf)}
    {s : Service Wf Body} {past : List (ServiceEvent Wf Body)}
    (hrun : runFrom (Service.step u) (Service.init webWorker) acts = some (s, past)) (wf : Wf) :
    JoinsOnce u wf past <-> Gathered u wf past := by
  have hinv := serviceInv_run hrun
  constructor
  · exact hinv.gathered
  · exact hinv.joins_once

/-!
## Two mappers
-/

def reducerStage : Upstream Nat Unit where
  app := twoMappers
  tp := "mapper"
  num := 2
  body _ _ := ()
  waits := rfl
  counted := rfl
  positive := by decide

def deliverBoth (ds : List (Nat × Nat)) : List (ServiceAct Nat) :=
  [.finish 7 0, .finish 7 1] ++ ds.map fun d => .deliver d.1 7 d.2

def seen (webWorker : Nat) (ds : List (Nat × Nat)) :
    Option (List (ServiceEvent Nat Unit)) :=
  (runFrom (Service.step reducerStage) (Service.init webWorker) (deliverBoth ds)).map
    fun r => r.2

theorem joins_once_iff_together :
    exists s past,
      runFrom (Service.step reducerStage) (Service.init 2) (deliverBoth [(1, 1), (1, 0)]) =
          some (s, past) ∧
        Gathered reducerStage 7 past ∧ JoinsOnce reducerStage 7 past := by
  have hseen : seen 2 [(1, 1), (1, 0)] = some
      [.delivered 1 7 1, .delivered 1 7 0,
        .ran 1 (.batch "reducer" [reducerStage.sent 7 1, reducerStage.sent 7 0])
          [(7, 1), (7, 0)]] := by
    decide +kernel
  rcases Option.map_eq_some_iff.mp hseen with ⟨⟨s, past⟩, hrun, hpast⟩
  have hgathered : Gathered reducerStage 7 past := by
    simp only at hpast
    rw [hpast]
    refine ⟨1, by decide, by decide, by decide, fun pid' hne => ?_⟩
    have hnone : deliveries pid' 7 [.delivered 1 7 1, .delivered 1 7 0,
        .ran 1 (.batch "reducer" [reducerStage.sent 7 1, reducerStage.sent 7 0])
          [(7, 1), (7, 0)]] = [] := by
      simp [deliveries, hne.symm]
    rw [hnone]
    decide
  exact ⟨s, past, hrun, hgathered, (joins_once_iff reducerStage 2 hrun 7).mpr hgathered⟩

/-- One process and a repeated delivery, or two processes with one event each. -/
theorem not_joins_once_repeated_or_apart :
    (¬ forall ds s past,
      runFrom (Service.step reducerStage) (Service.init 1) (deliverBoth ds) = some (s, past) ->
        (forall worker, worker < 2 -> exists pid, .delivered pid 7 worker ∈ past) ->
          JoinsOnce reducerStage 7 past) ∧
      ¬ forall ds s past,
        runFrom (Service.step reducerStage) (Service.init 2) (deliverBoth ds) = some (s, past) ->
          ds.map (fun d => d.2) = [0, 1] -> JoinsOnce reducerStage 7 past := by
  constructor
  · intro h
    have hseen : seen 1 [(0, 0), (0, 0), (0, 1)] = some
        [.delivered 0 7 0, .delivered 0 7 0,
          .ran 0 (.batch "reducer" [reducerStage.sent 7 0, reducerStage.sent 7 0])
            [(7, 1), (7, 0)], .delivered 0 7 1] := by
      decide +kernel
    rcases Option.map_eq_some_iff.mp hseen with ⟨⟨s, past⟩, hrun, hpast⟩
    simp only at hpast
    have hjoins := h _ s past hrun (by
      intro worker hworker
      rw [hpast]
      cases worker with
      | zero => exact ⟨0, List.mem_cons_self⟩
      | succ worker =>
          cases Nat.lt_one_iff.mp (Nat.lt_of_succ_lt_succ hworker)
          exact ⟨0, by decide⟩)
    rcases hjoins with ⟨pid, metas, finished, hruns, hperm, _⟩
    have hbatch : runsOf reducerStage 7 past =
        [(0, [reducerStage.sent 7 0, reducerStage.sent 7 0], [(7, 1), (7, 0)])] := by
      rw [hpast]
      decide
    rw [hbatch] at hruns
    cases hruns
    have hmem : reducerStage.sent 7 1 ∈ [reducerStage.sent 7 0, reducerStage.sent 7 0] :=
      hperm.mem_iff.mpr (by decide)
    exact absurd hmem (by decide)
  · intro h
    have hseen : seen 2 [(0, 0), (1, 1)] = some [.delivered 0 7 0, .delivered 1 7 1] := by
      decide +kernel
    rcases Option.map_eq_some_iff.mp hseen with ⟨⟨s, past⟩, hrun, hpast⟩
    simp only at hpast
    rcases h _ s past hrun rfl with ⟨pid, metas, finished, hruns, _⟩
    rw [hpast] at hruns
    cases hruns

end Workflow
end Dmerge
