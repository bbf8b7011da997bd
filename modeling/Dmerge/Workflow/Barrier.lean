import Dmerge.Foundation.Blocks
import Dmerge.Workflow.Join

/-!
# The join as a barrier

A process handles one event after the other.  For every stage and workflow the
events that arrive are handed over in consecutive blocks, whatever arrives for
other stages and workflows in between.
-/

namespace Dmerge
namespace Workflow

open Foundation

variable {Meta Wf : Type} [EventData Meta Wf] {app : App} {e : CloudEvent Meta}
  {stage : String} {wf : Wf}

/-!
## Arrivals and batches
-/

def joinKey (app : App) (e : CloudEvent Meta) : Option (String × Wf) :=
  let handler := app.dispatch e.tp
  if handler.ifWait = true ∧ EventData.isDict e.data = true ∧ EventData.len e.data > 0 then
    (EventData.wfId e.data).map fun wf => (handler.name, wf)
  else none

/-- All events that wait for a stage. -/
def joined (app : App) (events : List (CloudEvent Meta)) : List Meta :=
  (events.filter fun e => (joinKey app e).isSome).map fun e => e.data

theorem joinKey_some (h : joinKey app e = some (stage, wf)) :
    ((app.dispatch e.tp).ifWait = true ∧ EventData.isDict e.data = true ∧
      EventData.len e.data > 0) ∧
        EventData.wfId e.data = some wf ∧ (app.dispatch e.tp).name = stage := by
  simp only [joinKey] at h
  split at h
  case isTrue hwaits =>
    rcases Option.map_eq_some_iff.mp h with ⟨wf', hwf, heq⟩
    cases heq
    exact ⟨hwaits, hwf, rfl⟩
  case isFalse => cases h

theorem joined_append (events : List (CloudEvent Meta)) (h : joinKey app e = some (stage, wf)) :
    joined app (events ++ [e]) = joined app events ++ [e.data] := by
  simp [joined, List.filter_append, h]

theorem joined_append_of_none (events : List (CloudEvent Meta))
    (h : joinKey app e = (none : Option (String × Wf))) :
    joined app (events ++ [e]) = joined app events := by
  simp [joined, List.filter_append, h]

variable [DecidableEq Wf]

def arrivals (app : App) (stage : String) (wf : Wf) (events : List (CloudEvent Meta)) :
    List Meta :=
  (events.filter fun e => joinKey app e = some (stage, wf)).map fun e => e.data

theorem wfId_of_mem_arrivals {events : List (CloudEvent Meta)} {m : Meta}
    (hm : m ∈ arrivals app stage wf events) : EventData.wfId m = some wf := by
  rcases List.mem_map.mp hm with ⟨e, he, rfl⟩
  have hkey := (List.mem_filter.mp he).2
  exact (joinKey_some (of_decide_eq_true hkey)).2.1

theorem arrivals_append (events : List (CloudEvent Meta)) (h : joinKey app e = some (stage, wf)) :
    arrivals app stage wf (events ++ [e]) = arrivals app stage wf events ++ [e.data] := by
  simp [arrivals, List.filter_append, h]

theorem arrivals_append_of_ne (events : List (CloudEvent Meta))
    (h : joinKey app e ≠ some (stage, wf)) :
    arrivals app stage wf (events ++ [e]) = arrivals app stage wf events := by
  simp [arrivals, List.filter_append, h]

def Call.metas? : Call Meta -> Option (List Meta)
  | .one _ _ => none
  | .batch _ metas => some metas

def Call.batchOf (stage : String) (wf : Wf) : Call Meta -> Option (List Meta)
  | .one _ _ => none
  | .batch handler metas =>
      if handler = stage ∧ forall m, m ∈ metas -> EventData.wfId m = some wf then some metas
      else none

/-!
## A process at work
-/

def callsIn : Except String (Reply Meta × String) -> List (Call Meta)
  | .ok (.called c, _) => [c]
  | _ => []

structure Served (Meta Wf : Type) where
  process : Process Meta Wf
  calls : List (Call Meta)

namespace Served

def init : Served Meta Wf where
  process := Process.init
  calls := []

def deliver (app : App) (s : Served Meta Wf) (e : CloudEvent Meta) : Served Meta Wf :=
  let after := handleCe app s.process e
  { process := after.2, calls := s.calls ++ callsIn after.1 }

def batchesOf (s : Served Meta Wf) (stage : String) (wf : Wf) : List (List Meta) :=
  s.calls.filterMap (Call.batchOf stage wf)

def batches (s : Served Meta Wf) : List (List Meta) := s.calls.filterMap Call.metas?

end Served

/-- The process after it has handled some events. -/
def serve (app : App) (events : List (CloudEvent Meta)) : Served Meta Wf :=
  events.foldl (Served.deliver app) Served.init

theorem serve_append (app : App) (events : List (CloudEvent Meta)) (e : CloudEvent Meta) :
    serve app (events ++ [e]) = (serve app events).deliver app e := by
  unfold serve
  rw [List.foldl_append]
  rfl

section Deliver

variable {s : Served Meta Wf}

theorem handleCe_none (p : Process Meta Wf) (h : joinKey app e = none) :
    (handleCe app p e).2 = p ∧
      forall c, c ∈ callsIn (handleCe app p e).1 -> exists name, c = .one name e.data := by
  simp only [joinKey] at h
  simp only [handleCe]
  cases hwait : (app.dispatch e.tp).ifWait with
  | false =>
      constructor
      · rfl
      · intro c hcall
        rw [if_neg Bool.false_ne_true] at hcall
        exact ⟨_, List.mem_singleton.mp hcall⟩
  | true =>
      rw [if_pos rfl]
      by_cases hdict : EventData.isDict e.data = true ∧ EventData.len e.data > 0
      · rw [if_pos ⟨hwait, hdict⟩] at h
        have hwf : EventData.wfId e.data = none := Option.map_eq_none_iff.mp h
        rw [if_pos hdict]
        simp only [handleReduce, hwf]
        exact ⟨True.intro, fun c hcall => by cases hcall⟩
      · rw [if_neg hdict]
        exact ⟨rfl, fun c hcall => by cases hcall⟩

theorem deliver_none (h : joinKey app e = none) :
    (s.deliver app e).process = s.process ∧ (s.deliver app e).batches = s.batches ∧
      forall stage wf, (s.deliver app e).batchesOf stage wf = s.batchesOf stage wf := by
  rcases handleCe_none s.process h with ⟨hprocess, hcalls⟩
  have hnone : forall f : Call Meta -> Option (List Meta),
      (forall name, f (.one name e.data) = none) ->
        (s.deliver app e).calls.filterMap f = s.calls.filterMap f := by
    intro f hf
    unfold Served.deliver
    rw [List.filterMap_append]
    have hempty : (callsIn (handleCe app s.process e).1).filterMap f = [] := by
      apply List.filterMap_eq_nil_iff.mpr
      intro c hc
      rcases hcalls c hc with ⟨name, rfl⟩
      exact hf name
    rw [hempty, List.append_nil]
  constructor
  · exact hprocess
  · exact ⟨hnone _ fun name => rfl, fun stage wf => hnone _ fun name => rfl⟩

theorem deliver_some (hown : s.process.Owned) (h : joinKey app e = some (stage, wf)) :
    exists r q, Added s.process stage wf e.data r q ∧
      s.deliver app e =
        if (q.content r).length ≥ app.streamCnt then
          { process := q.drop stage wf, calls := s.calls ++ [.batch stage (q.content r)] }
        else { s with process := q } := by
  rcases joinKey_some h with ⟨⟨hwait, hdict⟩, hwf, rfl⟩
  rcases handleReduce_spec app hown hwf with ⟨r, q, hadded, hreduce⟩
  refine ⟨r, q, hadded, ?_⟩
  unfold Served.deliver
  simp only [handleCe]
  rw [if_pos hwait, if_pos hdict, hreduce]
  by_cases henough : (q.content r).length ≥ app.streamCnt
  · rw [if_pos henough, if_pos henough]
    rfl
  · rw [if_neg henough, if_neg henough]
    simp only [callsIn, List.append_nil]

end Deliver

/-!
## The accounts
-/

/-- A list that is there when it is not empty. -/
def unlessEmpty {alpha : Type} (l : List alpha) : Option (List alpha) :=
  if l.isEmpty = true then none else some l

theorem getD_unlessEmpty {alpha : Type} (l : List alpha) : (unlessEmpty l).getD [] = l := by
  cases l <;> rfl

theorem unlessEmpty_append {alpha : Type} (l : List alpha) (x : alpha) :
    unlessEmpty (l ++ [x]) = some (l ++ [x]) := by
  cases l <;> rfl

structure Accounts (app : App) (n : Nat) (events : List (CloudEvent Meta))
    (s : Served Meta Wf) : Prop where
  owned : s.process.Owned
  batches : forall stage wf,
    s.batchesOf stage wf = fullBlocks n (arrivals app stage wf events)
  pending : forall stage wf,
    s.process.pending stage wf = unlessEmpty (remainder n (arrivals app stage wf events))
  total : (s.batches ++ s.process.contents).flatten.Perm (joined app events)

theorem accounts_init (app : App) (n : Nat) :
    Accounts app n [] (Served.init : Served Meta Wf) where
  owned := owned_init
  batches stage wf := (fullBlocks_nil n).symm
  pending stage wf := by
    simp [arrivals, unlessEmpty, Served.init]
  total := List.Perm.refl _

section Step

variable {n : Nat} {events : List (CloudEvent Meta)} {s : Served Meta Wf}

theorem Accounts.deliver_none (hacc : Accounts app n events s) (h : joinKey app e = none) :
    Accounts app n (events ++ [e]) (s.deliver app e) := by
  have hsame : (s.deliver app e).process = s.process ∧
      (s.deliver app e).batches = s.batches ∧
        forall stage wf, (s.deliver app e).batchesOf stage wf = s.batchesOf stage wf :=
    Workflow.deliver_none h
  rcases hsame with ⟨hprocess, hbatches, hof⟩
  have harrivals : forall stage wf,
      arrivals app stage wf (events ++ [e]) = arrivals app stage wf events := by
    intro stage wf
    apply arrivals_append_of_ne
    rw [h]
    exact (Option.some_ne_none _).symm
  constructor
  · rw [hprocess]
    exact hacc.owned
  · intro stage wf
    rw [hof, harrivals]
    exact hacc.batches stage wf
  · intro stage wf
    rw [hprocess, harrivals]
    exact hacc.pending stage wf
  · rw [hprocess, hbatches, joined_append_of_none events h]
    exact hacc.total

theorem wfId_of_mem_batch (h : joinKey app e = some (stage, wf)) {m : Meta}
    (hm : m ∈ remainder n (arrivals app stage wf events) ++ [e.data]) :
    EventData.wfId m = some wf := by
  cases List.mem_append.mp hm with
  | inl hrem => exact wfId_of_mem_arrivals (remainder_subset _ _ hrem)
  | inr hlast =>
      rw [List.mem_singleton.mp hlast]
      exact (joinKey_some h).2.1

theorem batchOf_self (h : joinKey app e = some (stage, wf)) :
    Call.batchOf stage wf (.batch stage (remainder n (arrivals app stage wf events) ++ [e.data])) =
      some (remainder n (arrivals app stage wf events) ++ [e.data]) :=
  if_pos ⟨rfl, fun _ hm => wfId_of_mem_batch h hm⟩

theorem batchOf_other (h : joinKey app e = some (stage, wf)) {stage' : String} {wf' : Wf}
    (hne : (stage', wf') ≠ (stage, wf)) (l : List Meta) :
    Call.batchOf stage' wf' (.batch stage (l ++ [e.data])) = none := by
  apply if_neg
  intro hof
  have hlast := hof.2 e.data (List.mem_append_right l List.mem_cons_self)
  rw [(joinKey_some h).2.1] at hlast
  cases hlast
  exact hne (by rw [hof.1])

section Added

variable {r : ListId} {q : Process Meta Wf}

theorem arrivals_append_other (events : List (CloudEvent Meta))
    (h : joinKey app e = some (stage, wf)) {stage' : String} {wf' : Wf}
    (hne : (stage', wf') ≠ (stage, wf)) :
    arrivals app stage' wf' (events ++ [e]) = arrivals app stage' wf' events := by
  apply arrivals_append_of_ne
  rw [h]
  intro heq
  exact hne (Option.some.inj heq).symm

theorem Accounts.content_added (hacc : Accounts app n events s)
    (hadded : Added s.process stage wf e.data r q) :
    q.content r = remainder n (arrivals app stage wf events) ++ [e.data] := by
  rw [hadded.content, hacc.pending stage wf, getD_unlessEmpty]

theorem Accounts.total_added (hacc : Accounts app n events s)
    (h : joinKey app e = some (stage, wf)) (hadded : Added s.process stage wf e.data r q) :
    (s.batches ++ q.contents).flatten.Perm (joined app (events ++ [e])) := by
  rw [joined_append events h]
  have hsplit : (s.batches ++ q.contents).flatten.Perm
      ((s.batches ++ s.process.contents).flatten ++ [e.data]) := by
    rw [List.flatten_append, List.flatten_append, List.append_assoc]
    exact List.Perm.append_left _ hadded.total
  exact hsplit.trans (hacc.total.append_right _)

theorem Accounts.kept (hacc : Accounts app n events s) (h : joinKey app e = some (stage, wf))
    (hadded : Added s.process stage wf e.data r q)
    (hshort : (remainder n (arrivals app stage wf events)).length + 1 < n) :
    Accounts app n (events ++ [e]) { s with process := q } := by
  have harrivals := arrivals_append events h
  constructor
  · exact hadded.owned
  · intro stage' wf'
    by_cases hkey : (stage', wf') = (stage, wf)
    · cases hkey
      rw [harrivals, fullBlocks_append_short _ _ hshort]
      exact hacc.batches stage wf
    · rw [arrivals_append_other events h hkey]
      exact hacc.batches stage' wf'
  · intro stage' wf'
    by_cases hkey : (stage', wf') = (stage, wf)
    · cases hkey
      rw [harrivals, remainder_append_short _ _ hshort, unlessEmpty_append,
        <- hacc.content_added hadded]
      exact congrArg (Option.map q.content) hadded.found
    · rw [arrivals_append_other events h hkey]
      exact (hadded.others stage' wf' hkey).trans (hacc.pending stage' wf')
  · exact hacc.total_added h hadded

theorem Accounts.handedOver (hacc : Accounts app n events s)
    (h : joinKey app e = some (stage, wf)) (hadded : Added s.process stage wf e.data r q)
    (hfull : (remainder n (arrivals app stage wf events)).length + 1 = n) :
    Accounts app n (events ++ [e])
      { process := q.drop stage wf, calls := s.calls ++ [.batch stage (q.content r)] } := by
  have harrivals := arrivals_append events h
  have hdropped := dropped hadded.owned hadded.found
  constructor
  · exact hdropped.owned
  · intro stage' wf'
    unfold Served.batchesOf
    rw [List.filterMap_append, hacc.content_added hadded]
    by_cases hkey : (stage', wf') = (stage, wf)
    · cases hkey
      rw [harrivals, fullBlocks_append_full _ _ hfull, List.filterMap_cons, batchOf_self h]
      exact congrArg (· ++ _) (hacc.batches stage wf)
    · rw [arrivals_append_other events h hkey, List.filterMap_cons, batchOf_other h hkey]
      simp only [List.filterMap_nil, List.append_nil]
      exact hacc.batches stage' wf'
  · intro stage' wf'
    by_cases hkey : (stage', wf') = (stage, wf)
    · cases hkey
      rw [harrivals, remainder_append_full _ _ hfull]
      exact hdropped.gone
    · rw [arrivals_append_other events h hkey]
      exact ((hdropped.others stage' wf' hkey).trans
        (hadded.others stage' wf' hkey)).trans (hacc.pending stage' wf')
  · have hkept : ([q.content r] ++ (q.drop stage wf).contents).flatten.Perm
        q.contents.flatten := hdropped.total.symm.flatten
    have hsplit : ((s.batches ++ [q.content r]) ++ (q.drop stage wf).contents).flatten.Perm
        (s.batches ++ q.contents).flatten := by
      rw [List.append_assoc]
      simp only [List.flatten_append] at hkept ⊢
      exact hkept.append_left _
    unfold Served.batches at hsplit ⊢
    rw [List.filterMap_append]
    exact hsplit.trans (hacc.total_added h hadded)

end Added

theorem Accounts.deliver_some (hn : 1 ≤ n) (hcnt : app.streamCnt = n)
    (hacc : Accounts app n events s) (h : joinKey app e = some (stage, wf)) :
    Accounts app n (events ++ [e]) (s.deliver app e) := by
  rcases Workflow.deliver_some hacc.owned h with ⟨r, q, hadded, hdeliver⟩
  have hlength : (q.content r).length =
      (remainder n (arrivals app stage wf events)).length + 1 := by
    rw [hacc.content_added hadded, List.length_append, List.length_singleton]
  rw [hcnt] at hdeliver
  rw [hdeliver]
  cases Nat.lt_or_eq_of_le (Nat.succ_le_of_lt (length_remainder_lt hn
      (arrivals app stage wf events))) with
  | inl hshort =>
      rw [if_neg (by omega)]
      exact hacc.kept h hadded hshort
  | inr hfull =>
      rw [if_pos (by omega)]
      exact hacc.handedOver h hadded hfull

end Step

theorem serve_accounts (n : Nat) (hn : 1 ≤ n) (hcnt : app.streamCnt = n)
    (events : List (CloudEvent Meta)) : Accounts app n events (serve app events) := by
  induction events using List.reverseRecOn with
  | nil => exact accounts_init app n
  | append_singleton events e ih =>
      rw [serve_append]
      cases hkey : joinKey app e with
      | none => exact ih.deliver_none hkey
      | some key => exact ih.deliver_some hn hcnt hkey

/-- Join barrier accounting. -/
theorem barrier_accounting (app : App) (n : Nat) (hn : 1 ≤ n) (hcnt : app.streamCnt = n)
    (events : List (CloudEvent Meta)) :
    (forall stage wf,
      (serve app events).batchesOf stage wf = fullBlocks n (arrivals app stage wf events) ∧
        (serve app events).process.pending stage wf =
          unlessEmpty (remainder n (arrivals app stage wf events)) ∧
        (remainder n (arrivals app stage wf events)).length < n) ∧
      ((serve app events).batches ++ (serve app events).process.contents).flatten.Perm
        (joined app events) ∧
      forall stage wf events', arrivals app stage wf events' = arrivals app stage wf events ->
        (serve app events').batchesOf stage wf = (serve app events).batchesOf stage wf ∧
          (serve app events').process.pending stage wf =
            (serve app events).process.pending stage wf := by
  have hacc := serve_accounts n hn hcnt events
  refine ⟨fun stage wf => ?_, hacc.total, fun stage wf events' heq => ?_⟩
  · exact ⟨hacc.batches stage wf, hacc.pending stage wf, length_remainder_lt hn _⟩
  · have hacc' := serve_accounts n hn hcnt events'
    constructor
    · rw [hacc'.batches, hacc.batches, heq]
    · rw [hacc'.pending, hacc.pending, heq]

def twoMappers : App where
  handlerDispatch := wordcountDispatch
  ceType := "reducer"
  streamCnt := 2

def fromMapper (wf worker : Nat) : CloudEvent (Sent Nat Unit) where
  tp := "mapper"
  data := { wfId := wf, worker := worker, body := () }

def mixedEvents : List (CloudEvent (Sent Nat Unit)) :=
  [fromMapper 7 0, fromMapper 8 0, fromMapper 7 1, { (fromMapper 7 0) with tp := "splitter" },
    fromMapper 7 0]

theorem barrier_accounting_mixed :
    twoMappers.streamCnt = (2 : Nat) ∧
      (serve twoMappers mixedEvents).batchesOf "reducer" 7 =
        fullBlocks 2 (arrivals twoMappers "reducer" 7 mixedEvents) ∧
      fullBlocks 2 (arrivals twoMappers "reducer" 7 mixedEvents) =
        [[(fromMapper 7 0).data, (fromMapper 7 1).data]] ∧
      (serve twoMappers mixedEvents).process.pending "reducer" 7 =
        unlessEmpty (remainder 2 (arrivals twoMappers "reducer" 7 mixedEvents)) ∧
      remainder 2 (arrivals twoMappers "reducer" 7 mixedEvents) = [(fromMapper 7 0).data] := by
  have hacc := (barrier_accounting twoMappers 2 (by decide) rfl mixedEvents).1 "reducer" 7
  exact ⟨rfl, hacc.1, by decide +kernel, hacc.2.1, by decide +kernel⟩

end Workflow
end Dmerge
