import Dmerge.Foundation.NestedDict

/-!
# The join of a workflow

Every application dispatches the events it gets in the same way; the tables of
handlers differ.  A handler that waits is called with the events of a workflow
once enough of them have arrived.  Until then they are kept in lists, which the
dictionary `upstream_info` holds by reference.
-/

namespace Dmerge
namespace Workflow

open Foundation

/-- What the code asks of the data of an event. -/
class EventData (Meta : Type) (Wf : outParam Type) where
  /-- `type(meta) == dict` -/
  isDict : Meta -> Bool
  /-- `len(meta)` -/
  len : Meta -> Nat
  /-- `meta['wf_id']`, if the key is there. -/
  wfId : Meta -> Option Wf

/-- What an upstream worker sends: a dictionary with the workflow it works for and its
result.  The number of the worker is not part of the dictionary. -/
structure Sent (Wf Body : Type) where
  wfId : Wf
  worker : Nat
  body : Body
  deriving DecidableEq, Repr

instance {Wf Body : Type} : EventData (Sent Wf Body) Wf where
  isDict _ := true
  len _ := 2
  wfId m := some m.wfId

structure CloudEvent (Meta : Type) where
  tp : String
  data : Meta

/-- A handler by its `__name__`, and whether it waits. -/
structure Handler where
  name : String
  ifWait : Bool
  deriving DecidableEq, Repr

/-- What differs from one application to another, with the environment it runs in. -/
structure App where
  handlerDispatch : List (String × Handler)
  /-- `CE_TYPE` -/
  ceType : String
  /-- `UPSTREAM_NUM` -/
  streamCnt : Int

def App.dispatch (app : App) (sourceTp : String) : Handler :=
  (app.handlerDispatch.lookup sourceTp).getD { name := "default_handler", ifWait := false }

def pingTp : String := "dev.knative.sources.ping"

/-- `src/exp/wordcount/app.py` -/
def wordcountDispatch : List (String × Handler) :=
  [(pingTp, { name := "splitter", ifWait := false }),
    ("splitter", { name := "mapper", ifWait := false }),
    ("mapper", { name := "reducer", ifWait := true })]

abbrev ListId := Nat

structure Process (Meta Wf : Type) where
  /-- The list objects, by identity. -/
  lists : List (List Meta)
  upstreamInfo : NestedDict String Wf ListId

inductive Call (Meta : Type) where
  | one (handler : String) (m : Meta)
  | batch (handler : String) (metas : List Meta)
  deriving DecidableEq, Repr

/-- What `handle_ce` returns as data: what a handler returns, or the empty dictionary. -/
inductive Reply (Meta : Type) where
  | called (c : Call Meta)
  | empty
  deriving DecidableEq, Repr

section Code

variable {Meta Wf : Type} [DecidableEq Wf] [EventData Meta Wf]

def Process.init : Process Meta Wf where
  lists := []
  upstreamInfo := ∅

def Process.content (p : Process Meta Wf) (r : ListId) : List Meta := p.lists.getD r []

def keyError (key : String) : String := "KeyError: '" ++ key ++ "'"

def handleReduce (app : App) (p : Process Meta Wf) (m : Meta) (stageName : String) :
    Except String (Option ListId) × Process Meta Wf :=
  match EventData.wfId m with
  | none => (.error (keyError "wf_id"), p)
  | some wfId =>
      let info :=
        match p.upstreamInfo.lookup stageName with
        | none => p.upstreamInfo.insert stageName ∅
        | some _ => p.upstreamInfo
      -- `dict(...)` copies the dictionary, and the lists in it are shared.
      let curStageInfo := NestedDict.row info stageName
      let (lists, curStageInfo) :=
        match curStageInfo.lookup wfId with
        | none => (p.lists ++ [[m]], curStageInfo.insert wfId p.lists.length)
        | some r => (p.lists.modify r (· ++ [m]), curStageInfo)
      match curStageInfo.lookup wfId with
      | none => (.error (keyError "wf_id"), { lists := lists, upstreamInfo := info })
      | some r =>
          -- write back
          let q : Process Meta Wf :=
            { lists := lists, upstreamInfo := NestedDict.put info stageName wfId r }
          if (q.content r).length ≥ app.streamCnt then
            (.ok (some r),
              { q with upstreamInfo := NestedDict.remove q.upstreamInfo stageName wfId })
          else (.ok none, q)

def handleCe (app : App) (p : Process Meta Wf) (e : CloudEvent Meta) :
    Except String (Reply Meta × String) × Process Meta Wf :=
  let handler := app.dispatch e.tp
  if handler.ifWait = true then
    if EventData.isDict e.data = true ∧ EventData.len e.data > 0 then
      match handleReduce app p e.data handler.name with
      | (.error err, q) => (.error err, q)
      | (.ok (some r), q) =>
          (.ok (.called (.batch handler.name (q.content r)), app.ceType), q)
      | (.ok none, q) => (.ok (.empty, "none"), q)
    else (.ok (.empty, "none"), p)
  else (.ok (.called (.one handler.name e.data), app.ceType), p)

end Code

/-!
## What a process keeps
-/

section Store

variable {Meta Wf : Type} {p : Process Meta Wf}

/-- All lists of events that are kept. -/
def Process.contents (p : Process Meta Wf) : List (List Meta) :=
  (NestedDict.values p.upstreamInfo).map p.content

structure Process.Owned (p : Process Meta Wf) : Prop where
  distinct : (NestedDict.values p.upstreamInfo).Nodup
  stored : forall r, r ∈ NestedDict.values p.upstreamInfo -> r < p.lists.length

theorem owned_init : (Process.init : Process Meta Wf).Owned where
  distinct := List.nodup_nil
  stored r hr := by cases hr

section Lists

variable {lists : List (List Meta)} {info : NestedDict String Wf ListId} {r r' : ListId}

theorem content_append (l : List Meta) (hr : r < p.lists.length) :
    Process.content { lists := p.lists ++ [l], upstreamInfo := info } r = p.content r := by
  unfold Process.content
  simp only [List.getD_eq_getElem?_getD]
  rw [List.getElem?_append_left hr]

theorem content_append_self (l : List Meta) :
    Process.content { lists := lists ++ [l], upstreamInfo := info } lists.length = l := by
  simp [Process.content]

theorem content_modify (f : List Meta -> List Meta) (hne : r' ≠ r) :
    Process.content { lists := p.lists.modify r f, upstreamInfo := info } r' =
      p.content r' := by
  unfold Process.content
  simp only [List.getD_eq_getElem?_getD]
  rw [List.getElem?_modify]
  simp [hne.symm]

theorem content_modify_self (f : List Meta -> List Meta) (hr : r < p.lists.length) :
    Process.content { lists := p.lists.modify r f, upstreamInfo := info } r =
      f (p.content r) := by
  unfold Process.content
  simp [List.getD_eq_getElem?_getD, List.getElem?_eq_getElem hr]

end Lists

variable [DecidableEq Wf] {stage : String} {wf : Wf}

/-- The events that are kept for a stage and a workflow, if any are. -/
def Process.pending (p : Process Meta Wf) (stage : String) (wf : Wf) : Option (List Meta) :=
  (NestedDict.find p.upstreamInfo stage wf).map p.content

@[simp] theorem pending_init (stage : String) (wf : Wf) :
    (Process.init : Process Meta Wf).pending stage wf = none := rfl

theorem Process.Owned.ne_of_find (hown : p.Owned) {r r' : ListId} {stage' : String} {wf' : Wf}
    (hfind : NestedDict.find p.upstreamInfo stage wf = some r)
    (hfind' : NestedDict.find p.upstreamInfo stage' wf' = some r')
    (hne : (stage', wf') ≠ (stage, wf)) : r' ≠ r := by
  have hnodup := (NestedDict.values_remove hfind).nodup_iff.mp hown.distinct
  have hmem : r' ∈ NestedDict.values (NestedDict.remove p.upstreamInfo stage wf) := by
    apply NestedDict.mem_values_of_find
    rw [NestedDict.find_remove_of_ne _ _ _ _ _ hne]
    exact hfind'
  intro heq
  rw [heq] at hmem
  exact (List.nodup_cons.mp hnodup).1 hmem

/-!
## Adding an event and dropping a list
-/

def Process.addNew (p : Process Meta Wf) (stage : String) (wf : Wf) (m : Meta) :
    Process Meta Wf where
  lists := p.lists ++ [[m]]
  upstreamInfo := NestedDict.put p.upstreamInfo stage wf p.lists.length

def Process.addTo (p : Process Meta Wf) (stage : String) (wf : Wf) (m : Meta) (r : ListId) :
    Process Meta Wf where
  lists := p.lists.modify r (· ++ [m])
  upstreamInfo := NestedDict.put p.upstreamInfo stage wf r

def Process.drop (p : Process Meta Wf) (stage : String) (wf : Wf) : Process Meta Wf :=
  { p with upstreamInfo := NestedDict.remove p.upstreamInfo stage wf }

/-- The list `r` is made of what was kept before and the event, and nothing else changes. -/
structure Added (p : Process Meta Wf) (stage : String) (wf : Wf) (m : Meta) (r : ListId)
    (q : Process Meta Wf) : Prop where
  owned : q.Owned
  found : NestedDict.find q.upstreamInfo stage wf = some r
  content : q.content r = (p.pending stage wf).getD [] ++ [m]
  others : forall stage' wf', (stage', wf') ≠ (stage, wf) ->
    q.pending stage' wf' = p.pending stage' wf'
  total : q.contents.flatten.Perm (p.contents.flatten ++ [m])

theorem added_new (hown : p.Owned) (m : Meta)
    (hfind : NestedDict.find p.upstreamInfo stage wf = none) :
    Added p stage wf m p.lists.length (p.addNew stage wf m) := by
  have hvalues : (NestedDict.values (p.addNew stage wf m).upstreamInfo).Perm
      (p.lists.length :: NestedDict.values p.upstreamInfo) :=
    NestedDict.values_put_of_none hfind
  have hkept : forall r, r ∈ NestedDict.values p.upstreamInfo ->
      (p.addNew stage wf m).content r = p.content r :=
    fun r hr => content_append [m] (hown.stored r hr)
  have hself : (p.addNew stage wf m).content p.lists.length = [m] := content_append_self [m]
  constructor
  · constructor
    · apply hvalues.nodup_iff.mpr
      apply List.nodup_cons.mpr
      constructor
      · intro hmem
        exact Nat.lt_irrefl _ (hown.stored _ hmem)
      · exact hown.distinct
    · intro r hr
      have hlength : (p.addNew stage wf m).lists.length = p.lists.length + 1 :=
        List.length_append
      rw [hlength]
      cases List.mem_cons.mp (hvalues.mem_iff.mp hr) with
      | inl h =>
          rw [h]
          exact Nat.lt_succ_self _
      | inr h => exact Nat.lt_succ_of_lt (hown.stored r h)
  · exact NestedDict.find_put _ _ _ _
  · rw [hself]
    unfold Process.pending
    rw [hfind]
    rfl
  · intro stage' wf' hne
    have hfind' := NestedDict.find_put_of_ne p.upstreamInfo stage stage' wf wf'
      p.lists.length hne
    unfold Process.pending Process.addNew
    rw [hfind']
    cases hother : NestedDict.find p.upstreamInfo stage' wf' with
    | none => rfl
    | some r' => exact congrArg some (hkept r' (NestedDict.mem_values_of_find hother))
  · have hcontents : (p.addNew stage wf m).contents.Perm ([m] :: p.contents) := by
      apply (hvalues.map _).trans
      rw [List.map_cons, hself, List.map_congr_left hkept]
      exact List.Perm.refl _
    exact hcontents.flatten.trans List.perm_append_comm

theorem added_known (hown : p.Owned) (m : Meta) {r : ListId}
    (hfind : NestedDict.find p.upstreamInfo stage wf = some r) :
    Added p stage wf m r (p.addTo stage wf m r) := by
  have hvalues : (NestedDict.values (p.addTo stage wf m r).upstreamInfo).Perm
      (NestedDict.values p.upstreamInfo) :=
    NestedDict.values_put_of_find hfind
  have hself : (p.addTo stage wf m r).content r = p.content r ++ [m] :=
    content_modify_self _ (hown.stored r (NestedDict.mem_values_of_find hfind))
  have hkept : forall r', r' ≠ r -> (p.addTo stage wf m r).content r' = p.content r' :=
    fun r' hne => content_modify _ hne
  constructor
  · constructor
    · exact hvalues.nodup_iff.mpr hown.distinct
    · intro r' hr'
      have hlength : (p.addTo stage wf m r).lists.length = p.lists.length :=
        List.length_modify _ _ _
      rw [hlength]
      exact hown.stored r' (hvalues.mem_iff.mp hr')
  · exact NestedDict.find_put _ _ _ _
  · rw [hself]
    unfold Process.pending
    rw [hfind]
    rfl
  · intro stage' wf' hne
    have hfind' := NestedDict.find_put_of_ne p.upstreamInfo stage stage' wf wf' r hne
    unfold Process.pending Process.addTo
    rw [hfind']
    cases hother : NestedDict.find p.upstreamInfo stage' wf' with
    | none => rfl
    | some r' => exact congrArg some (hkept r' (hown.ne_of_find hfind hother hne))
  · have hsplit := NestedDict.values_remove hfind
    have hnodup := hsplit.nodup_iff.mp hown.distinct
    have hrest : (NestedDict.values (NestedDict.remove p.upstreamInfo stage wf)).map
        (p.addTo stage wf m r).content =
          (NestedDict.values (NestedDict.remove p.upstreamInfo stage wf)).map p.content := by
      apply List.map_congr_left
      intro r' hr'
      apply hkept
      intro heq
      rw [heq] at hr'
      exact (List.nodup_cons.mp hnodup).1 hr'
    have hafter : (p.addTo stage wf m r).contents.Perm
        ((p.content r ++ [m]) ::
          (NestedDict.values (NestedDict.remove p.upstreamInfo stage wf)).map p.content) := by
      apply ((hvalues.trans hsplit).map _).trans
      rw [List.map_cons, hself, hrest]
    have hbefore := hsplit.map p.content
    apply hafter.flatten.trans
    apply List.Perm.trans _ (hbefore.flatten.symm.append_right [m])
    simp only [List.flatten_cons, List.map_cons, List.append_assoc]
    exact List.Perm.append_left _ List.perm_append_comm

structure Dropped (q : Process Meta Wf) (stage : String) (wf : Wf) (r : ListId)
    (p : Process Meta Wf) : Prop where
  owned : p.Owned
  gone : p.pending stage wf = none
  others : forall stage' wf', (stage', wf') ≠ (stage, wf) ->
    p.pending stage' wf' = q.pending stage' wf'
  total : q.contents.Perm (q.content r :: p.contents)

theorem dropped (hown : p.Owned) {r : ListId}
    (hfind : NestedDict.find p.upstreamInfo stage wf = some r) :
    Dropped p stage wf r (p.drop stage wf) := by
  have hvalues := NestedDict.values_remove hfind
  constructor
  · constructor
    · exact (List.nodup_cons.mp (hvalues.nodup_iff.mp hown.distinct)).2
    · intro r' hr'
      exact hown.stored r' (hvalues.mem_iff.mpr (List.mem_cons_of_mem r hr'))
  · exact congrArg (Option.map p.content) (NestedDict.find_remove _ _ _)
  · intro stage' wf' hne
    exact congrArg (Option.map p.content) (NestedDict.find_remove_of_ne _ _ _ _ _ hne)
  · exact hvalues.map p.content

end Store

/-!
## What the code does
-/

section Spec

variable {Meta Wf : Type} [DecidableEq Wf] [EventData Meta Wf] {p : Process Meta Wf}
  {m : Meta} {stage : String} {wf : Wf}

theorem handleReduce_eq (app : App) (hwf : EventData.wfId m = some wf) :
    handleReduce app p m stage =
      let added :=
        match NestedDict.find p.upstreamInfo stage wf with
        | none => (p.lists.length, p.addNew stage wf m)
        | some r => (r, p.addTo stage wf m r)
      if (added.2.content added.1).length ≥ app.streamCnt then
        (.ok (some added.1), added.2.drop stage wf)
      else (.ok none, added.2) := by
  have hinfo : exists info : NestedDict String Wf ListId,
      (match p.upstreamInfo.lookup stage with
        | none => p.upstreamInfo.insert stage ∅
        | some _ => p.upstreamInfo) = info ∧
      NestedDict.row info stage = NestedDict.row p.upstreamInfo stage ∧
      forall r, NestedDict.put info stage wf r = NestedDict.put p.upstreamInfo stage wf r := by
    cases hlookup : p.upstreamInfo.lookup stage with
    | none =>
        exact ⟨_, rfl, NestedDict.row_insert_empty _ _ _ hlookup,
          fun r => NestedDict.put_insert_empty hlookup⟩
    | some e => exact ⟨_, rfl, rfl, fun r => rfl⟩
  rcases hinfo with ⟨info, hinfo, hrow, hput⟩
  unfold handleReduce
  simp only [hwf, hinfo, hrow, hput]
  cases hfind : NestedDict.find p.upstreamInfo stage wf with
  | none =>
      have hlookup : (NestedDict.row p.upstreamInfo stage).lookup wf = none := hfind
      simp only [hlookup, AList.lookup_insert]
      rfl
  | some r =>
      have hlookup : (NestedDict.row p.upstreamInfo stage).lookup wf = some r := hfind
      simp only [hlookup]
      rfl

theorem handleReduce_spec (app : App) (hown : p.Owned) (hwf : EventData.wfId m = some wf) :
    exists r q, Added p stage wf m r q ∧
      handleReduce app p m stage =
        if (q.content r).length ≥ app.streamCnt then (.ok (some r), q.drop stage wf)
        else (.ok none, q) := by
  rw [handleReduce_eq app hwf]
  cases hfind : NestedDict.find p.upstreamInfo stage wf with
  | none => exact ⟨_, _, added_new hown m hfind, rfl⟩
  | some r => exact ⟨_, _, added_known hown m hfind, rfl⟩

end Spec

end Workflow
end Dmerge
