import Dmerge.Workflow.Finra

/-!
# What the stages add up to

A stage is summed once its other times are there.  The times of the calls are summed by the
audit, and again by the sink, when the first sum is one of them.  So the time that is reported
is more than its parts by what the calls had added before the audit.
-/

namespace Dmerge
namespace Workflow
namespace Finra

open Foundation

def IsSummed (d : Times) : Prop := d.amount "stage_time" = d.rest "stage_time"

/-- The time that is reported is that of the other keys together. -/
def EqualsItsParts (reduced : Times) : Prop :=
  reduced.lookup "stage_time" = some (reduced.rest "stage_time")

/-!
## What a call has added
-/

def Arrival.added (a : Arrival) : List Nat := [a.ntTime, a.fetchDataTime, a.deseriTime]

def Fetched.added (r : Fetched) : List Nat :=
  r.origin.seriTime :: r.arrival.added ++ [r.seriTime]

def Joined.added (r : Joined) : List Nat := r.origin.added ++ r.arrival.added

def Audited.addedBefore (r : Audited) : List Nat := (r.events.getLast?.map Joined.added).getD []

/-- What was added to the event that is reported, before its audit. -/
def Run.addedBefore (r : Run) : List Nat :=
  (r.metas.getLast?.map fun a => a.origin.addedBefore).getD []

/-!
## The profile
-/

section Profiles

variable {m m' m'' : Meta} {stage key : String} {n : Nat} {d : Times}

def Meta.times (m : Meta) : Dict String Times := m.profile.times

def OnlyWrites (m m' : Meta) (stage : String) : Prop :=
  forall s, s ≠ stage -> m'.times.lookup s = m.times.lookup s

def IsOpen (m : Meta) (stage : String) : Prop :=
  exists d, m.times.lookup stage = some d ∧ d.amount "stage_time" = 0

theorem OnlyWrites.trans (h : OnlyWrites m m' stage) (h' : OnlyWrites m' m'' stage) :
    OnlyWrites m m'' stage := fun s hs => (h' s hs).trans (h s hs)

theorem onlyWrites_setTimes (m : Meta) (stage : String) (d : Times) :
    OnlyWrites m (setTimes m stage d) stage := fun _ hs => AList.lookup_insert_ne hs

theorem lookup_setTimes (m : Meta) (stage : String) (d : Times) :
    (setTimes m stage d).times.lookup stage = some d := AList.lookup_insert _

theorem timesOf_ok (h : timesOf m stage = .ok d) : m.times.lookup stage = some d := by
  unfold timesOf at h
  unfold Meta.times
  split at h
  · cases h
  · next hlookup =>
      cases h
      exact hlookup

theorem setTime_ok (h : setTime m stage key n = .ok m') :
    exists d, m.times.lookup stage = some d ∧ m' = setTimes m stage (d.insert key n) := by
  rcases bind_ok_iff.mp h with ⟨d, hd, hm⟩
  cases hm
  exact ⟨d, timesOf_ok hd, rfl⟩

theorem addTime_ok (h : addTime m stage key n = .ok m') :
    exists d, m.times.lookup stage = some d ∧ m' = setTimes m stage (d.bump key n) := by
  rcases bind_ok_iff.mp h with ⟨d, hd, hm⟩
  refine ⟨d, timesOf_ok hd, ?_⟩
  unfold Dict.bump
  cases hlookup : d.lookup key with
  | none =>
      rw [hlookup] at hm
      cases hm
  | some v =>
      rw [hlookup] at hm
      cases hm
      rfl

theorem sumStage_ok (h : sumStage m stage = .ok m') :
    exists d, m.times.lookup stage = some d ∧
      m' = setTimes m stage (d.insert "stage_time" d.total) := by
  rcases bind_ok_iff.mp h with ⟨d, hd, hm⟩
  cases hm
  exact ⟨d, timesOf_ok hd, rfl⟩

theorem setTime_onlyWrites (h : setTime m stage key n = .ok m') : OnlyWrites m m' stage := by
  rcases setTime_ok h with ⟨d, _, rfl⟩
  exact onlyWrites_setTimes m stage _

theorem addTime_onlyWrites (h : addTime m stage key n = .ok m') : OnlyWrites m m' stage := by
  rcases addTime_ok h with ⟨d, _, rfl⟩
  exact onlyWrites_setTimes m stage _

theorem sumStage_onlyWrites (h : sumStage m stage = .ok m') : OnlyWrites m m' stage := by
  rcases sumStage_ok h with ⟨d, _, rfl⟩
  exact onlyWrites_setTimes m stage _

theorem isOpen_setTimes (h : d.amount "stage_time" = 0) : IsOpen (setTimes m stage d) stage :=
  ⟨d, lookup_setTimes m stage d, h⟩

theorem IsOpen.onlyWrites {other : String} (h : IsOpen m stage) (hw : OnlyWrites m m' other)
    (hne : stage ≠ other) : IsOpen m' stage := by
  rcases h with ⟨d, hd, hzero⟩
  exact ⟨d, (hw stage hne).trans hd, hzero⟩

theorem IsOpen.setTime (h : IsOpen m stage) (hkey : key ≠ "stage_time")
    (hok : setTime m stage key n = .ok m') : IsOpen m' stage := by
  rcases h with ⟨d, hd, hzero⟩
  rcases setTime_ok hok with ⟨d', hd', rfl⟩
  rw [hd] at hd'
  cases hd'
  apply isOpen_setTimes
  rw [Dict.amount_insert_of_ne _ _ _ _ (Ne.symm hkey)]
  exact hzero

theorem IsOpen.addTime (h : IsOpen m stage) (hkey : key ≠ "stage_time")
    (hok : addTime m stage key n = .ok m') : IsOpen m' stage := by
  rcases h with ⟨d, hd, hzero⟩
  rcases addTime_ok hok with ⟨d', hd', rfl⟩
  rw [hd] at hd'
  cases hd'
  apply isOpen_setTimes
  rw [Dict.amount_bump, if_neg hkey]
  exact hzero

theorem sumStage_amount (h : sumStage m stage = .ok m') (hd : m.times.lookup stage = some d) :
    exists d', m'.times.lookup stage = some d' ∧
      d'.amount "stage_time" = d'.rest "stage_time" + d.amount "stage_time" ∧
      d'.amount "stage_time" = d.total := by
  rcases sumStage_ok h with ⟨d', hd', rfl⟩
  rw [hd] at hd'
  cases hd'
  refine ⟨_, lookup_setTimes m stage _, ?_, Dict.amount_insert _ _ _⟩
  rw [Dict.amount_insert, Dict.rest_insert, Nat.add_comm]
  exact (Dict.amount_add_rest d "stage_time").symm

theorem IsOpen.sumStage (h : IsOpen m stage) (hok : sumStage m stage = .ok m') :
    exists d, m'.times.lookup stage = some d ∧ IsSummed d := by
  rcases h with ⟨d, hd, hzero⟩
  rcases sumStage_amount hok hd with ⟨d', hd', hsum, _⟩
  rw [hzero, Nat.add_zero] at hsum
  exact ⟨d', hd', hsum⟩

end Profiles

/-!
## Before and after the audit
-/

section Phases

variable {m m' : Meta} {stage key : String} {n added earlier : Nat}

def StagesSummed (m : Meta) : Prop :=
  forall s d, s ≠ "runtime" -> m.times.lookup s = some d -> IsSummed d

structure BeforeAudit (m : Meta) (added : Nat) : Prop where
  stages : StagesSummed m
  noAudit : m.times.lookup "runAuditRule" = none
  runtime : exists r, m.times.lookup "runtime" = some r ∧ r.amount "stage_time" = 0 ∧
    r.total = added

structure AfterAudit (m : Meta) (earlier : Nat) : Prop where
  stages : StagesSummed m
  runtime : exists r, m.times.lookup "runtime" = some r ∧ r.amount "stage_time" = earlier

theorem StagesSummed.writeRuntime (h : StagesSummed m) (hw : OnlyWrites m m' "runtime") :
    StagesSummed m' := by
  intro s d hs hd
  rw [hw s hs] at hd
  exact h s d hs hd

theorem StagesSummed.writeStage (h : StagesSummed m) (hw : OnlyWrites m m' stage)
    (hsummed : exists d, m'.times.lookup stage = some d ∧ IsSummed d) : StagesSummed m' := by
  rcases hsummed with ⟨d, hd, hsummed⟩
  intro s d' hs hd'
  by_cases hstage : s = stage
  · subst hstage
    rw [hd] at hd'
    cases hd'
    exact hsummed
  · rw [hw s hstage] at hd'
    exact h s d' hs hd'

theorem BeforeAudit.addTime (h : BeforeAudit m added) (hkey : key ≠ "stage_time")
    (hok : addTime m "runtime" key n = .ok m') : BeforeAudit m' (added + n) := by
  have hw := addTime_onlyWrites hok
  rcases h.runtime with ⟨r, hr, hzero, htotal⟩
  rcases addTime_ok hok with ⟨r', hr', rfl⟩
  rw [hr] at hr'
  cases hr'
  constructor
  · exact h.stages.writeRuntime hw
  · rw [hw "runAuditRule" (by decide)]
    exact h.noAudit
  · refine ⟨_, lookup_setTimes m "runtime" _, ?_, ?_⟩
    · rw [Dict.amount_bump, if_neg hkey]
      exact hzero
    · rw [Dict.total_bump, htotal]

theorem AfterAudit.addTime (h : AfterAudit m earlier) (hkey : key ≠ "stage_time")
    (hok : addTime m "runtime" key n = .ok m') : AfterAudit m' earlier := by
  have hw := addTime_onlyWrites hok
  rcases h.runtime with ⟨r, hr, hsum⟩
  rcases addTime_ok hok with ⟨r', hr', rfl⟩
  rw [hr] at hr'
  cases hr'
  constructor
  · exact h.stages.writeRuntime hw
  · refine ⟨_, lookup_setTimes m "runtime" _, ?_⟩
    rw [Dict.amount_bump, if_neg hkey]
    exact hsum

theorem BeforeAudit.receive {a : Arrival} (h : BeforeAudit m added)
    (hok : receive m a = .ok m') : BeforeAudit m' (added + a.added.sum) := by
  rcases bind_ok_iff.mp hok with ⟨m1, h1, hok⟩
  rcases bind_ok_iff.mp hok with ⟨m2, h2, h3⟩
  have hlast := ((h.addTime (by decide) h1).addTime (by decide) h2).addTime (by decide) h3
  have hsum : added + a.added.sum = added + a.ntTime + a.fetchDataTime + a.deseriTime := by
    simp only [Arrival.added, List.sum_cons, List.sum_nil]
    omega
  rw [hsum]
  exact hlast

theorem AfterAudit.receive {a : Arrival} (h : AfterAudit m earlier)
    (hok : receive m a = .ok m') : AfterAudit m' earlier := by
  rcases bind_ok_iff.mp hok with ⟨m1, h1, hok⟩
  rcases bind_ok_iff.mp hok with ⟨m2, h2, h3⟩
  exact ((h.addTime (by decide) h1).addTime (by decide) h2).addTime (by decide) h3

theorem BeforeAudit.writeStage (h : BeforeAudit m added) (hw : OnlyWrites m m' stage)
    (hstage : stage ≠ "runtime" ∧ stage ≠ "runAuditRule")
    (hsummed : exists d, m'.times.lookup stage = some d ∧ IsSummed d) : BeforeAudit m' added := by
  constructor
  · exact h.stages.writeStage hw hsummed
  · rw [hw "runAuditRule" (Ne.symm hstage.2)]
    exact h.noAudit
  · rw [hw "runtime" (Ne.symm hstage.1)]
    exact h.runtime

end Phases

/-!
## The functions
-/

section Functions

variable {m m' : Meta}

theorem find_mem {alpha : Type} {table : List (String × alpha)} {key : String} {a : alpha}
    (h : find table key = .ok a) : (key, a) ∈ table := by
  unfold find at h
  split at h
  · cases h
  · next hlookup =>
      cases h
      rcases List.lookup_eq_some_iff.mp hlookup with ⟨before, after, heq, _⟩
      rw [heq]
      exact List.mem_append_right before List.mem_cons_self

def Passes (f : Meta -> Except String Meta) (stage : String) : Prop :=
  forall m m', IsOpen m stage -> f m = .ok m' -> OnlyWrites m m' stage ∧ IsOpen m' stage

theorem setTime_passes (stage key : String) (hkey : key ≠ "stage_time") (n : Nat) :
    Passes (fun m => setTime m stage key n) stage :=
  fun _ _ hopen hok => ⟨setTime_onlyWrites hok, hopen.setTime hkey hok⟩

theorem publicDataEs_passes (c : Fetching) : Passes (fun m => publicDataEs m c) "fetchData" := by
  intro m m' hopen hok
  rcases bind_ok_iff.mp hok with ⟨_, _, hok⟩
  rcases bind_ok_iff.mp hok with ⟨m1, h1, hok⟩
  rcases bind_ok_iff.mp hok with ⟨m2, h2, hok⟩
  cases hok
  have hopen0 : IsOpen { m with
      profile := { m.profile with sdBytesLen := m.profile.sdBytesLen + c.bytes } } "fetchData" :=
    hopen
  rcases setTime_passes "fetchData" "sd_time" (by decide) c.sdTime _ m1 hopen0 h1 with
    ⟨hw, hopen1⟩
  rcases setTime_passes "fetchData" "es_time" (by decide) c.esTime m1 m2 hopen1 h2 with
    ⟨hw', hopen2⟩
  exact ⟨OnlyWrites.trans hw hw', hopen2⟩

theorem publicDataRpc_passes (c : Fetching) : Passes (fun m => publicDataRpc m c) "fetchData" := by
  intro m m' hopen hok
  exact setTime_passes "fetchData" "sd_time" (by decide) c.sdTime { m with payload := true } m' hopen hok

theorem publicDataDmerge_passes (c : Fetching) :
    Passes (fun m => publicDataDmerge m c) "fetchData" := by
  intro m m' hopen hok
  rcases bind_ok_iff.mp hok with ⟨pushed, _, hok⟩
  exact setTime_passes "fetchData" "push_time" (by decide) c.pushTime
    { m with
      objHash := some c.objId
      route := some { gid := pushed.1, machineId := pushed.2.1, nicId := 0, hint := pushed.2.2 } }
    m' hopen hok

theorem publicDataDispatcher_passes {protocol : String}
    {f : Meta -> Fetching -> Except String Meta} (h : find publicDataDispatcher protocol = .ok f)
    (c : Fetching) : Passes (fun m => f m c) "fetchData" := by
  have hmem := find_mem h
  unfold publicDataDispatcher at hmem
  simp only [List.mem_cons, Prod.mk.injEq, List.not_mem_nil, or_false] at hmem
  rcases hmem with ⟨_, rfl⟩ | ⟨_, rfl⟩ | ⟨_, rfl⟩ | ⟨_, rfl⟩ | ⟨_, rfl⟩
  · exact publicDataEs_passes c
  · exact publicDataRpc_passes c
  · exact publicDataDmerge_passes c
  · exact publicDataDmerge_passes c
  · exact publicDataEs_passes c

theorem fetchMarketData_spec {c : Fetching} (hok : fetchMarketData m c = .ok m') :
    OnlyWrites m m' "fetchData" ∧ IsOpen m' "fetchData" := by
  unfold fetchMarketData at hok
  split at hok
  · rcases bind_ok_iff.mp hok with ⟨tickers, _, hok⟩
    rcases bind_ok_iff.mp hok with ⟨publicData, hpublic, hok⟩
    rcases bind_ok_iff.mp hok with ⟨out, hout, hok⟩
    cases hok
    rcases publicDataDispatcher_passes hpublic c _ _ (isOpen_setTimes rfl) hout with ⟨hw, hopen⟩
    exact ⟨(onlyWrites_setTimes m "fetchData" _).trans hw, hopen⟩
  · cases hok

theorem fetchPortfolio_spec {c : Fetching} {portfolio : String}
    (hok : fetchPortfolio m c portfolio = .ok m') :
    OnlyWrites m m' "fetchData" ∧ IsOpen m' "fetchData" := by
  rcases bind_ok_iff.mp hok with ⟨data, _, hok⟩
  cases hok
  exact ⟨onlyWrites_setTimes _ "fetchData" _, isOpen_setTimes rfl⟩

theorem fetchPortfolioData_spec {c : Fetching} (hok : fetchPortfolioData m c = .ok m') :
    OnlyWrites m m' "fetchData" ∧ IsOpen m' "fetchData" := by
  unfold fetchPortfolioData at hok
  split at hok
  · exact fetchPortfolio_spec hok
  · exact fetchPortfolio_spec hok
  · cases hok

theorem fetchDatas_spec {c : Fetching} {id : Int} {fetch : Meta -> Fetching -> Except String Meta}
    (h : fetchDatas id = .ok fetch) (hok : fetch m c = .ok m') :
    OnlyWrites m m' "fetchData" ∧ IsOpen m' "fetchData" := by
  unfold fetchDatas at h
  split at h
  · cases h
    exact fetchMarketData_spec hok
  · split at h
    · cases h
      exact fetchPortfolioData_spec hok
    · cases h

theorem fetchData_spec {c : Fetching} (hok : fetchData m c = .ok m') :
    OnlyWrites m m' "fetchData" ∧
      exists d, m'.times.lookup "fetchData" = some d ∧ IsSummed d := by
  rcases bind_ok_iff.mp hok with ⟨fetch, hfetch, hok⟩
  rcases bind_ok_iff.mp hok with ⟨out, hout, hsum⟩
  rcases fetchDatas_spec hfetch hout with ⟨hw, hopen⟩
  have hopen' : IsOpen { out with profile := { out.profile with leaveTick := c.leaveTick } }
      "fetchData" := hopen
  have hw' := sumStage_onlyWrites hsum
  exact ⟨OnlyWrites.trans hw hw', hopen'.sumStage hsum⟩

def Handled (m m' : Meta) : Prop :=
  exists d : Times, d.amount "stage_time" = 0 ∧ m' = setTimes m "runAuditRule" d

theorem handlePublicDmerge_handled {c : Handling} (hok : handlePublicDmerge m c = .ok m') :
    Handled m m' := by
  unfold handlePublicDmerge at hok
  split at hok
  · cases hok
  · rcases bind_ok_iff.mp hok with ⟨_, _, hok⟩
    split at hok
    · cases hok
    · rcases bind_ok_iff.mp hok with ⟨_, _, hok⟩
      cases hok
      exact ⟨_, rfl, rfl⟩

theorem handlePublicEs_handled {c : Handling} (hok : handlePublicEs m c = .ok m') :
    Handled m m' := by
  unfold handlePublicEs at hok
  split at hok
  · cases hok
  · rcases bind_ok_iff.mp hok with ⟨_, _, hok⟩
    cases hok
    exact ⟨_, rfl, rfl⟩

theorem handlePublicRpc_handled {c : Handling} (hok : handlePublicRpc m c = .ok m') :
    Handled m m' := by
  unfold handlePublicRpc at hok
  split at hok
  · cases hok
    exact ⟨_, rfl, rfl⟩
  · cases hok

theorem dispatcher_handled {protocol : String} {handle : Meta -> Handling -> Except String Meta}
    {c : Handling} (h : find dispatcher protocol = .ok handle) (hok : handle m c = .ok m') :
    Handled m m' := by
  have hmem := find_mem h
  unfold dispatcher at hmem
  simp only [List.mem_cons, Prod.mk.injEq, List.not_mem_nil, or_false] at hmem
  rcases hmem with ⟨_, rfl⟩ | ⟨_, rfl⟩ | ⟨_, rfl⟩ | ⟨_, rfl⟩ | ⟨_, rfl⟩
  · exact handlePublicEs_handled hok
  · exact handlePublicRpc_handled hok
  · exact handlePublicDmerge_handled hok
  · exact handlePublicDmerge_handled hok
  · exact handlePublicRpc_handled hok

theorem handleEvent_handled {c : Handling} (hok : handleEvent m c = .ok m') :
    m' = m ∨ Handled m m' := by
  unfold handleEvent at hok
  split at hok
  · rcases bind_ok_iff.mp hok with ⟨handle, hhandle, hok⟩
    exact Or.inr (dispatcher_handled hhandle hok)
  · cases hok
    exact Or.inr ⟨_, rfl, rfl⟩
  · cases hok
    exact Or.inl rfl

theorem finishEvent_afterAudit {added executeTime : Nat} {m m1 m' : Meta} {c : Handling}
    (h : BeforeAudit m added) (hhandled : m1 = m ∨ Handled m m1)
    (hok : finishEvent executeTime m1 c = .ok m') : AfterAudit m' added := by
  rcases bind_ok_iff.mp hok with ⟨m2, h2, hrest⟩
  rcases bind_ok_iff.mp hrest with ⟨m3, h3, hrest'⟩
  rcases bind_ok_iff.mp hrest' with ⟨m4, h4, hlast⟩
  have hw2 := sumStage_onlyWrites h2
  have hw3 := addTime_onlyWrites h3
  have hw4 := sumStage_onlyWrites h4
  rcases hhandled with rfl | ⟨d, hzero, rfl⟩
  · -- An event that was not handled has no times to add to.
    rcases addTime_ok h3 with ⟨d, hd, _⟩
    rw [hw2 "runAuditRule" (by decide), h.noAudit] at hd
    cases hd
  · have hw1 := onlyWrites_setTimes m "runAuditRule" d
    have hopen1 : IsOpen (setTimes m "runAuditRule" d) "runAuditRule" := isOpen_setTimes hzero
    have hopen2 := hopen1.onlyWrites hw2 (by decide)
    have hopen3 := hopen2.addTime (by decide) h3
    have hsummed := hopen3.sumStage h4
    rcases h.runtime with ⟨r, hr, _, htotal⟩
    rw [← hw1 "runtime" (by decide)] at hr
    rcases sumStage_amount h2 hr with ⟨r', hr', _, hsum⟩
    have hruntime : m4.times.lookup "runtime" = some r' := by
      rw [hw4 "runtime" (by decide), hw3 "runtime" (by decide)]
      exact hr'
    cases hlast
    constructor
    · intro s d' hs hd'
      by_cases haudit : s = "runAuditRule"
      · subst haudit
        rcases hsummed with ⟨d4, hd4, hsummed⟩
        have heq : some d4 = some d' := hd4.symm.trans hd'
        cases heq
        exact hsummed
      · have hsame : m4.times.lookup s = m.times.lookup s := by
          rw [hw4 s haudit, hw3 s haudit, hw2 s hs, hw1 s haudit]
        exact h.stages s d' hs (hsame.symm.trans hd')
    · exact ⟨r', hruntime, by rw [hsum, htotal]⟩

end Functions

/-!
## Runs
-/

section Runs

variable {m : Meta}

theorem source_beforeAudit (c : Sourcing) : BeforeAudit (source c) 0 := by
  constructor
  · intro s d hs hd
    have hnone : (source c).times.lookup s = (∅ : Dict String Times).lookup s :=
      AList.lookup_insert_ne hs
    rw [hnone] at hd
    cases hd
  · rfl
  · exact ⟨_, rfl, rfl, rfl⟩

theorem Fetched.sent_beforeAudit {r : Fetched} (hok : r.sent = .ok m) :
    BeforeAudit m r.added.sum := by
  rcases bind_ok_iff.mp hok with ⟨m1, h1, hok⟩
  rcases bind_ok_iff.mp hok with ⟨m2, h2, hok⟩
  rcases bind_ok_iff.mp hok with ⟨m3, h3, h4⟩
  rcases fetchData_spec h3 with ⟨hw, hsummed⟩
  have hsourced := (source_beforeAudit r.origin.call).addTime (by decide) h1
  have hreceived := hsourced.receive h2
  have hfetched := hreceived.writeStage hw ⟨by decide, by decide⟩ hsummed
  have hsent := hfetched.addTime (by decide) h4
  have hsum : r.added.sum = 0 + r.origin.seriTime + r.arrival.added.sum + r.seriTime := by
    simp only [Fetched.added, List.cons_append, List.sum_cons, List.sum_append, List.sum_nil]
    omega
  rw [hsum]
  exact hsent

theorem Joined.received_beforeAudit {r : Joined} {e : Meta × Handling}
    (hok : r.received = .ok e) : BeforeAudit e.1 r.added.sum := by
  rcases bind_ok_iff.mp hok with ⟨m1, h1, hok⟩
  rcases bind_ok_iff.mp hok with ⟨m2, h2, hok⟩
  cases hok
  have hreceived := (Fetched.sent_beforeAudit h1).receive h2
  rw [Joined.added, List.sum_append]
  exact hreceived

theorem runAuditRule_spec {events : List (Meta × Handling)} {executeTime : Nat}
    (hok : runAuditRule events executeTime = .ok m) :
    exists e m', events.getLast? = some e ∧ handleEvent e.1 e.2 = .ok m' ∧
      finishEvent executeTime m' e.2 = .ok m := by
  rcases bind_ok_iff.mp hok with ⟨handled, hhandled, hok⟩
  split at hok
  · cases hok
  · rcases bind_ok_iff.mp hok with ⟨portfolioData, _, hok⟩
    rcases bind_ok_iff.mp hok with ⟨_, _, hok⟩
    rcases bind_ok_iff.mp hok with ⟨finished, hfinished, hok⟩
    split at hok
    · cases hok
    · next outMeta hlast =>
        cases hok
        rcases getLast?_of_mapM_ok hfinished hlast with ⟨e', hlast', hfinish⟩
        rcases getLast?_of_mapM_ok hhandled hlast' with ⟨e, hlast'', hhandle⟩
        rcases bind_ok_iff.mp hhandle with ⟨m', hm', hpair⟩
        cases hpair
        exact ⟨e, m', hlast'', hm', hfinish⟩

theorem Audited.sent_afterAudit {r : Audited} (hok : r.sent = .ok m) :
    AfterAudit m r.addedBefore.sum := by
  rcases bind_ok_iff.mp hok with ⟨events, hevents, hok⟩
  rcases bind_ok_iff.mp hok with ⟨m1, haudit, hsend⟩
  rcases runAuditRule_spec haudit with ⟨e, m', hlast, hhandle, hfinish⟩
  rcases getLast?_of_mapM_ok hevents hlast with ⟨j, hj, hreceived⟩
  have hbefore := Joined.received_beforeAudit hreceived
  have hafter := finishEvent_afterAudit hbefore (handleEvent_handled hhandle) hfinish
  have hadded : r.addedBefore = j.added := by
    unfold Audited.addedBefore
    rw [hj]
    rfl
  rw [hadded]
  exact hafter.addTime (by decide) hsend

theorem Arrived.received_afterAudit {r : Arrived} (hok : r.received = .ok m) :
    AfterAudit m r.origin.addedBefore.sum := by
  rcases bind_ok_iff.mp hok with ⟨m1, h1, h2⟩
  exact (Audited.sent_afterAudit h1).receive h2

/-!
## The report
-/

theorem reduceProfile_eq (p : Profile) :
    reduceProfile p = (∅ : Times).bumpAll ((Dict.values p.times).flatMap Dict.items) := by
  unfold Dict.bumpAll
  rw [List.foldl_flatMap]
  rfl

theorem amount_reduceProfile (p : Profile) (k : String) :
    (reduceProfile p).amount k = ((Dict.values p.times).map fun d => d.amount k).sum := by
  rw [reduceProfile_eq, Dict.amount_bumpAll, Dict.amount_empty, Nat.zero_add, Dict.share_flatMap]
  simp only [Dict.share_items]

theorem total_reduceProfile (p : Profile) :
    (reduceProfile p).total = ((Dict.values p.times).map Dict.total).sum := by
  rw [reduceProfile_eq, Dict.total_bumpAll, Dict.sum_flatMap_items]
  exact Nat.zero_add _

theorem sum_total_of_summed {l : List Times} (h : forall d, d ∈ l -> IsSummed d) :
    (l.map Dict.total).sum = 2 * (l.map fun d => d.amount "stage_time").sum := by
  induction l with
  | nil => rfl
  | cons d rest ih =>
      have hd : d.amount "stage_time" = d.rest "stage_time" := h d List.mem_cons_self
      have htotal := Dict.amount_add_rest d "stage_time"
      have hrest := ih fun d' hd' => h d' (List.mem_cons_of_mem d hd')
      simp only [List.map_cons, List.sum_cons]
      omega

theorem amount_reduceProfile_stageTime {m : Meta} {r : Times} {earlier : Nat}
    (hstages : StagesSummed m) (hr : m.times.lookup "runtime" = some r)
    (hearlier : r.amount "stage_time" = r.rest "stage_time" + earlier) :
    (reduceProfile m.profile).amount "stage_time" =
      (reduceProfile m.profile).rest "stage_time" + earlier := by
  have hvalues := Dict.values_of_lookup hr
  have hsummed : forall d, d ∈ Dict.values (m.times.erase "runtime") -> IsSummed d := by
    intro d hd
    rcases Dict.mem_values_erase hd with ⟨s, hs, hlookup⟩
    exact hstages s d hs hlookup
  have hothers := sum_total_of_summed hsummed
  have hamount : (reduceProfile m.profile).amount "stage_time" =
      ((Dict.values m.times).map fun d => d.amount "stage_time").sum :=
    amount_reduceProfile m.profile "stage_time"
  have htotal : (reduceProfile m.profile).total = ((Dict.values m.times).map Dict.total).sum :=
    total_reduceProfile m.profile
  rw [(hvalues.map fun d => d.amount "stage_time").sum_eq, List.map_cons, List.sum_cons] at hamount
  rw [(hvalues.map Dict.total).sum_eq, List.map_cons, List.sum_cons] at htotal
  have hreduced := Dict.amount_add_rest (reduceProfile m.profile) "stage_time"
  have hruntime := Dict.amount_add_rest r "stage_time"
  omega

theorem sink_spec {metas : List Meta} {rep : Report} (hok : sink metas = .ok rep) :
    exists m m', metas.getLast? = some m ∧ sumStage m "runtime" = .ok m' ∧
      rep.reduced = reduceProfile m'.profile ∧
        rep.reduced.lookup "stage_time" = some rep.stageTime := by
  unfold sink at hok
  split at hok
  · cases hok
  · next m hlast =>
      rcases bind_ok_iff.mp hok with ⟨m', hsum, hok⟩
      split at hok
      · cases hok
      · dsimp only at hok
        split at hok
        · cases hok
        · next stageTime hstage =>
            cases hok
            exact ⟨m, m', hlast, hsum, rfl, hstage⟩

theorem Run.stageTime_eq {r : Run} {rep : Report} (hok : r.report = .ok rep) :
    rep.reduced.lookup "stage_time" =
      some (rep.reduced.rest "stage_time" + r.addedBefore.sum) := by
  rcases bind_ok_iff.mp hok with ⟨metas, hmetas, hsink⟩
  rcases sink_spec hsink with ⟨m, m', hlast, hsum, hreduced, hlookup⟩
  rcases getLast?_of_mapM_ok hmetas hlast with ⟨a, ha, hreceived⟩
  have hafter := Arrived.received_afterAudit hreceived
  rcases hafter.runtime with ⟨d, hd, hearlier⟩
  rcases sumStage_amount hsum hd with ⟨d', hd', hamount, _⟩
  have hadded : r.addedBefore = a.origin.addedBefore := by
    unfold Run.addedBefore
    rw [ha]
    rfl
  have hstages := hafter.stages.writeRuntime (sumStage_onlyWrites hsum)
  have hexcess := amount_reduceProfile_stageTime hstages hd' hamount
  rw [hearlier, ← hadded, ← hreduced] at hexcess
  rw [hlookup, ← hexcess, Dict.amount_of_lookup hlookup]

/-- The time that is reported equals its parts exactly if the calls had added nothing before the
audit. -/
theorem Run.equals_its_parts_iff (r : Run) (rep : Report) (hok : r.report = .ok rep) :
    EqualsItsParts rep.reduced <-> forall n, n ∈ r.addedBefore -> n = 0 := by
  rw [← List.sum_eq_zero_iff_forall_eq_nat]
  unfold EqualsItsParts
  rw [Run.stageTime_eq hok]
  constructor
  · intro h
    have heq := Option.some.inj h
    omega
  · intro h
    rw [h, Nat.add_zero]

/-- A run of two branches.  The network takes its time to the second of them and two milliseconds
to the sink, and the audit takes five. -/
def twoBranches (ntTime : Nat) : Run :=
  let sourced : Sourced :=
    { call := { protocol := "ES", loop := 0, wfStartTick := 0, leaveTick := 0 }, seriTime := 0 }
  let quiet : Arrival := { ntTime := 0, fetchDataTime := 0, deseriTime := 0 }
  let fetching (id : Int) : Fetching :=
    { id := id, executeTime := 0, pdTime := 0, sdTime := 0, esTime := 0, pushTime := 0, bytes := 0,
      put := .ok (), objId := 0, push := .ok ("", "", 0), leaveTick := 0 }
  let handling : Handling :=
    { pullTime := 0, executeTime := 0, esTime := 0, sdTime := 0, pull := fun _ => 0,
      fetch := .ok (), get := .ok (), wfEndTick := 0 }
  let market : Fetched :=
    { origin := sourced, arrival := quiet, call := fetching 0, seriTime := 0 }
  let portfolio : Fetched :=
    { origin := sourced, arrival := { quiet with ntTime := ntTime }, call := fetching 1,
      seriTime := 0 }
  let audited : Audited :=
    { events := [
        { origin := market, arrival := quiet, handling := handling },
        { origin := portfolio, arrival := quiet, handling := handling }]
      executeTime := 5
      seriTime := 0 }
  { metas := [{ origin := audited, arrival := { quiet with ntTime := 2 } }] }

theorem equals_its_parts_zero :
    exists rep, (twoBranches 0).report = .ok rep ∧ EqualsItsParts rep.reduced := by
  have hok : exists rep, (twoBranches 0).report = .ok rep := ⟨_, rfl⟩
  rcases hok with ⟨rep, hrep⟩
  exact ⟨rep, hrep, (Run.equals_its_parts_iff (twoBranches 0) rep hrep).mpr (by decide)⟩

/-- A millisecond of the network before the audit is counted twice. -/
theorem not_equals_its_parts_one :
    ¬ forall (r : Run) (rep : Report), r.report = .ok rep -> EqualsItsParts rep.reduced := by
  intro h
  have hok : exists rep, (twoBranches 1).report = .ok rep := ⟨_, rfl⟩
  rcases hok with ⟨rep, hrep⟩
  have hparts := h (twoBranches 1) rep hrep
  unfold EqualsItsParts at hparts
  rw [Run.stageTime_eq hrep] at hparts
  have hone : (twoBranches 1).addedBefore.sum = 1 := rfl
  have heq := Option.some.inj hparts
  omega

end Runs

end Finra
end Workflow
end Dmerge
