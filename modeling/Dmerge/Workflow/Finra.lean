import Dmerge.Foundation.Attempts
import Dmerge.Foundation.Tally
import Dmerge.Workflow.Join

/-!
# An audit of trades

The workflow has four functions.  An event carries a profile from one to the next, and
each function puts its times into the profile, as does the process that calls it.  The last
function adds the times of all stages up.

The data that is audited is not part of the model, only the keys under which it is passed.
-/

namespace Dmerge
namespace Workflow
namespace Finra

open Foundation

abbrev Times : Type := Dict String Nat

structure Profile where
  loop : Int
  sdBytesLen : Nat
  leaveTick : Nat
  wfStartTick : Nat
  wfEndTick : Option Nat
  times : Dict String Times

inductive Body where
  | request (portfolioType portfolio : String)
  | marketData (tickers : List String)
  | checked (valid : Bool) (portfolio : String)
  deriving DecidableEq

structure Route where
  gid : String
  machineId : String
  nicId : Nat
  hint : Nat
  deriving DecidableEq

structure Meta where
  protocol : String
  profile : Profile
  body : Body
  s3ObjKey : Option String
  /-- Whether the key is there. -/
  payload : Bool
  objHash : Option Nat
  route : Option Route

/-!
## The profile
-/

/-- `profile[stage]` -/
def timesOf (m : Meta) (stage : String) : Except String Times :=
  match m.profile.times.lookup stage with
  | none => .error (keyError stage)
  | some d => .ok d

/-- `profile[stage] = d` -/
def setTimes (m : Meta) (stage : String) (d : Times) : Meta :=
  { m with profile := { m.profile with times := m.profile.times.insert stage d } }

/-- `profile[stage][key] = n` -/
def setTime (m : Meta) (stage key : String) (n : Nat) : Except String Meta := do
  let d ← timesOf m stage
  .ok (setTimes m stage (d.insert key n))

/-- `profile[stage][key] += n` -/
def addTime (m : Meta) (stage key : String) (n : Nat) : Except String Meta := do
  let d ← timesOf m stage
  match d.lookup key with
  | none => .error (keyError key)
  | some v => .ok (setTimes m stage (d.insert key (v + n)))

/-- `profile[stage]['stage_time'] = sum(profile[stage].values())` -/
def sumStage (m : Meta) (stage : String) : Except String Meta := do
  let d ← timesOf m stage
  .ok (setTimes m stage (d.insert "stage_time" d.total))

/-- `reduce_profile`: the numbers of the profile are left out. -/
def reduceProfile (p : Profile) : Times :=
  (Dict.values p.times).foldl (fun resDic d => resDic.bumpAll d.items) ∅

/-!
## The source
-/

/-- What a call of `source` is made with, and what it measures. -/
structure Sourcing where
  protocol : String
  loop : Int
  wfStartTick : Nat
  leaveTick : Nat

def source (c : Sourcing) : Meta where
  protocol := c.protocol
  profile :=
    { loop := c.loop
      sdBytesLen := 0
      leaveTick := c.leaveTick
      wfStartTick := c.wfStartTick
      wfEndTick := none
      times := (∅ : Dict String Times).insert "runtime"
        ((((∅ : Times).insert "fetch_data_time" 0).insert "sd_time" 0).insert "nt_time" 0) }
  body := .request "S&P" "1234"
  s3ObjKey := none
  payload := false
  objHash := none
  route := none

/-!
## The data
-/

/-- What a call of `fetchData` measures, and what the services answer. -/
structure Fetching where
  /-- `ID` -/
  id : Int
  executeTime : Nat
  pdTime : Nat
  sdTime : Nat
  esTime : Nat
  pushTime : Nat
  /-- `len(o)` -/
  bytes : Nat
  put : Except String Unit
  objId : Nat
  /-- The identifiers of the machine, and the hint. -/
  push : Except String (String × String × Nat)
  leaveTick : Nat

structure Trade where
  security : String
  side : Int

def portfolios : List (String × List Trade) :=
  [("1234", [{ security := "GOOG", side := 1 }, { security := "MSFT", side := 1 }])]

def tickersForPortfolioTypes : List (String × List String) :=
  [("S&P", ["GOOG", "AMZN", "MSFT", "SVFAU", "AB", "ABC", "ABCB"])]

section Code

def find {alpha : Type} (table : List (String × alpha)) (key : String) : Except String alpha :=
  match table.lookup key with
  | none => .error (keyError key)
  | some a => .ok a

def publicDataEs (m : Meta) (c : Fetching) : Except String Meta := do
  let m := { m with profile := { m.profile with sdBytesLen := m.profile.sdBytesLen + c.bytes } }
  c.put
  let m ← setTime m "fetchData" "sd_time" c.sdTime
  let m ← setTime m "fetchData" "es_time" c.esTime
  .ok { m with s3ObjKey := some "whole_data" }

def publicDataRrpc (m : Meta) (c : Fetching) : Except String Meta := publicDataEs m c

def publicDataRpc (m : Meta) (c : Fetching) : Except String Meta :=
  setTime { m with payload := true } "fetchData" "sd_time" c.sdTime

def publicDataDmerge (m : Meta) (c : Fetching) : Except String Meta := do
  let (gid, macId, hint) ← c.push
  let m := { m with
    objHash := some c.objId
    route := some { gid := gid, machineId := macId, nicId := 0, hint := hint } }
  setTime m "fetchData" "push_time" c.pushTime

def publicDataDispatcher : List (String × (Meta -> Fetching -> Except String Meta)) :=
  [("ES", publicDataEs), ("RPC", publicDataRpc), ("DMERGE", publicDataDmerge),
    ("DMERGE_PUSH", publicDataDmerge), ("RRPC", publicDataRrpc)]

def fetchMarketData (m : Meta) (c : Fetching) : Except String Meta :=
  match m.body with
  | .request portfolioType _ => do
      let tickers ← find tickersForPortfolioTypes portfolioType
      let out := setTimes m "fetchData"
        (((∅ : Times).insert "execute_time" c.executeTime).insert "pd_time" c.pdTime)
      let publicData ← find publicDataDispatcher m.protocol
      let out ← publicData out c
      .ok { out with body := .marketData tickers }
  | _ => .error (keyError "portfolioType")

def fetchPortfolio (m : Meta) (c : Fetching) (portfolio : String) : Except String Meta := do
  let data ← find portfolios portfolio
  let valid := data.all fun trade => trade.side == 1 || trade.side == 2 || trade.side == 8
  .ok (setTimes { m with body := .checked valid portfolio } "fetchData"
    ((∅ : Times).insert "execute_time" c.executeTime))

def fetchPortfolioData (m : Meta) (c : Fetching) : Except String Meta :=
  match m.body with
  | .request _ portfolio => fetchPortfolio m c portfolio
  | .checked _ portfolio => fetchPortfolio m c portfolio
  | .marketData _ => .error (keyError "portfolio")

/-- `fetch_datas[ID]`: an index below zero counts from the end. -/
def fetchDatas (id : Int) : Except String (Meta -> Fetching -> Except String Meta) :=
  if id = 0 ∨ id = -2 then .ok fetchMarketData
  else if id = 1 ∨ id = -1 then .ok fetchPortfolioData
  else .error "IndexError: list index out of range"

def fetchData (m : Meta) (c : Fetching) : Except String Meta := do
  let fetch ← fetchDatas c.id
  let out ← fetch m c
  sumStage { out with profile := { out.profile with leaveTick := c.leaveTick } } "fetchData"

/-!
## The audit
-/

/-- What `runAuditRule` measures for one event, and what the services answer. -/
structure Handling where
  pullTime : Nat
  executeTime : Nat
  esTime : Nat
  sdTime : Nat
  /-- The answers of `call_pull`. -/
  pull : Nat -> Int
  fetch : Except String Unit
  get : Except String Unit
  wfEndTick : Nat

def pullAll (c : Handling) (n : Nat) : Except String Unit :=
  (List.range n).forM fun i => if c.pull i = 0 then .ok () else .error "AssertionError"

def handlePublicDmerge (m : Meta) (c : Handling) : Except String Meta :=
  match m.route with
  | none => .error (keyError "route")
  | some _ => do
      pullAll c (if m.protocol = "DMERGE" then 1 else 2)
      match m.objHash with
      | none => .error (keyError "obj_hash")
      | some _ => do
          c.fetch
          .ok (setTimes m "runAuditRule"
            (((∅ : Times).insert "pull_time" c.pullTime).insert "execute_time" c.executeTime))

def handlePublicEs (m : Meta) (c : Handling) : Except String Meta :=
  match m.s3ObjKey with
  | none => .error (keyError "s3_obj_key")
  | some _ => do
      c.get
      .ok (setTimes m "runAuditRule"
        ((((∅ : Times).insert "es_time" c.esTime).insert "sd_time" c.sdTime).insert
          "execute_time" 0))

def handlePublicRpc (m : Meta) (c : Handling) : Except String Meta :=
  if m.payload = true then
    .ok (setTimes m "runAuditRule"
      (((∅ : Times).insert "sd_time" c.sdTime).insert "execute_time" 0))
  else .error (keyError "payload")

def dispatcher : List (String × (Meta -> Handling -> Except String Meta)) :=
  [("ES", handlePublicEs), ("RPC", handlePublicRpc), ("DMERGE", handlePublicDmerge),
    ("DMERGE_PUSH", handlePublicDmerge), ("RRPC", handlePublicRpc)]

def handleEvent (m : Meta) (c : Handling) : Except String Meta :=
  match m.body with
  | .marketData _ => do
      let handle ← find dispatcher m.protocol
      handle m c
  | .checked _ _ =>
      .ok (setTimes m "runAuditRule" ((∅ : Times).insert "execute_time" 0))
  | .request _ _ => .ok m

def marketDataOf (m : Meta) : Option (List String) :=
  match m.body with
  | .marketData tickers => some tickers
  | _ => none

def portfolioOf (m : Meta) : Option String :=
  match m.body with
  | .checked _ portfolio => some portfolio
  | _ => none

def marginAccounts : List (String × Nat) := [("1234", 4500)]

/-- What the balance needs; nothing is done with the result. -/
def checkMarginBalance (portfolioData : List Trade) (marketData : List String)
    (portfolio : String) : Except String Unit := do
  let _ ← find marginAccounts portfolio
  portfolioData.forM fun trade =>
    if trade.security ∈ marketData then .ok () else .error (keyError trade.security)

def finishEvent (executeTime : Nat) (m : Meta) (c : Handling) : Except String Meta := do
  let m ← sumStage m "runtime"
  let m ← addTime m "runAuditRule" "execute_time" executeTime
  let m ← sumStage m "runAuditRule"
  .ok { m with profile := { m.profile with wfEndTick := some c.wfEndTick } }

/-- The events are handled one by one; the prices and the portfolio are those of the last events
that have any. -/
def runAuditRule (events : List (Meta × Handling)) (executeTime : Nat) : Except String Meta := do
  let handled ← events.mapM fun e => do
    let m ← handleEvent e.1 e.2
    .ok (m, e.2)
  match (handled.filterMap fun e => portfolioOf e.1).getLast? with
  | none => .error "UnboundLocalError: local variable 'portfolio' referenced before assignment"
  | some portfolio => do
      let portfolioData ← find portfolios portfolio
      let marketData := (handled.filterMap fun e => marketDataOf e.1).getLast?.getD []
      checkMarginBalance portfolioData marketData portfolio
      let finished ← handled.mapM fun e => finishEvent executeTime e.1 e.2
      match finished.getLast? with
      | none => .error "IndexError: list index out of range"
      | some outMeta => .ok outMeta

/-!
## The sink
-/

/-- What `sink` prints, and the loop that it asks for again. -/
structure Report where
  reduced : Times
  stageTime : Nat
  loop : Option Int

def nextLoop (loop : Int) : Option Int := if loop > 0 then some (loop - 1) else none

def sink (metas : List Meta) : Except String Report :=
  match metas.getLast? with
  | none => .error "IndexError: list index out of range"
  | some m => do
      let m ← sumStage m "runtime"
      let reduced := reduceProfile m.profile
      match m.profile.wfEndTick with
      | none => .error (keyError "wf_end_tick")
      | some _ =>
          match reduced.lookup "stage_time" with
          | none => .error (keyError "stage_time")
          | some stageTime =>
              .ok
                { reduced := reduced
                  stageTime := stageTime
                  loop := nextLoop m.profile.loop }

/-!
## The calls
-/

/-- What `faas_entry` measures before it calls a function. -/
structure Arrival where
  ntTime : Nat
  fetchDataTime : Nat
  deseriTime : Nat

/-- `faas_entry`, up to the call -/
def receive (m : Meta) (a : Arrival) : Except String Meta := do
  let m ← addTime m "runtime" "nt_time" a.ntTime
  let m ← addTime m "runtime" "fetch_data_time" a.fetchDataTime
  addTime m "runtime" "sd_time" a.deseriTime

/-- `faas_entry`, after the call -/
def respond (m : Meta) (seriTime : Nat) : Except String Meta :=
  addTime m "runtime" "sd_time" seriTime

end Code

/-!
## Runs

A run of the workflow is told from its end: what a function was called with, where that came
from, and what was measured.
-/

structure Sourced where
  call : Sourcing
  seriTime : Nat

def Sourced.sent (r : Sourced) : Except String Meta := respond (source r.call) r.seriTime

structure Fetched where
  origin : Sourced
  arrival : Arrival
  call : Fetching
  seriTime : Nat

def Fetched.sent (r : Fetched) : Except String Meta := do
  let m ← r.origin.sent
  let m ← receive m r.arrival
  let m ← fetchData m r.call
  respond m r.seriTime

structure Joined where
  origin : Fetched
  arrival : Arrival
  handling : Handling

def Joined.received (r : Joined) : Except String (Meta × Handling) := do
  let m ← r.origin.sent
  let m ← receive m r.arrival
  .ok (m, r.handling)

structure Audited where
  events : List Joined
  executeTime : Nat
  seriTime : Nat

def Audited.sent (r : Audited) : Except String Meta := do
  let events ← r.events.mapM Joined.received
  let m ← runAuditRule events r.executeTime
  respond m r.seriTime

structure Arrived where
  origin : Audited
  arrival : Arrival

def Arrived.received (r : Arrived) : Except String Meta := do
  let m ← r.origin.sent
  receive m r.arrival

/-- The last list of the run. -/
structure Run where
  metas : List Arrived

def Run.report (r : Run) : Except String Report := do
  let metas ← r.metas.mapM Arrived.received
  sink metas

end Finra
end Workflow
end Dmerge
