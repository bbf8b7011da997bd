import Dmerge.Foundation.Executions
import Dmerge.Kernel.Pages

/-!
# What a batch read returns

A page that a batch read returns is meant to have been read: its read was posted, and
the code has waited for a completion that covers it.  The code does not look at how a
post went, it waits only for the read of the last address, and it does not take back
the other pages when that wait fails.  A batch is read on one CPU, whose queue pair is
shared by all its reads, so a wait may end with the completion of an earlier read whose own
wait timed out.
-/

namespace Dmerge
namespace Kernel

open Foundation Memory Descriptors Producer Prog

variable {Regs Rdma : Type}

abbrev Trace (Regs Rdma : Type) := List (Exchange (kernelSig Regs Rdma))

/-!
## The reads of a trace
-/

structure PageRead where
  page : PageId
  pa : Nat
  signaled : Bool
  posted : Bool
  awaited : Bool
  deriving DecidableEq, Repr

def PageRead.cover (covered : Bool) (r : PageRead) : PageRead :=
  { r with awaited := r.awaited || covered }

/-- A read that was posted to a queue pair, and whether its completion was polled. -/
structure QueuedRead where
  read : PageRead
  polled : Bool
  deriving DecidableEq, Repr

def QueuedRead.Outstanding (q : QueuedRead) : Bool :=
  q.read.signaled && q.read.posted && !q.polled

/-- A poll takes the oldest completion.  It covers the read that it comes of and the reads
before it, unless it is an error. -/
def pollReads (covers : Bool) : List QueuedRead -> List QueuedRead
  | [] => []
  | q :: rest =>
      if q.Outstanding = true then { read := q.read.cover covers, polled := true } :: rest
      else
        { q with read := q.read.cover (covers && rest.any QueuedRead.Outstanding) } ::
          pollReads covers rest

/-- The queue pair after a call.  A wait that times out leaves the completion to come. -/
def noteRead (reads : List QueuedRead) : (o : KernelOp Regs Rdma) -> o.Res -> List QueuedRead
  | .postPageRead page pa _ signaled, posted =>
      reads ++ [{ read := { page, pa, signaled, posted, awaited := false }, polled := false }]
  | .blockOnPageReads, .done _ => pollReads true reads
  | .blockOnPageReads, .failed => pollReads false reads
  | _, _ => reads

def readsFrom (before : List QueuedRead) (trace : Trace Regs Rdma) : List QueuedRead :=
  trace.foldl (fun reads e => noteRead reads e.op e.res) before

def ownReads (before : List QueuedRead) (trace : Trace Regs Rdma) : List PageRead :=
  ((readsFrom before trace).drop before.length).map QueuedRead.read

def allocatedPage : (o : KernelOp Regs Rdma) -> o.Res -> Option PageId
  | .allocPage, page => some page
  | _, _ => none

def freedPage : KernelOp Regs Rdma -> Option PageId
  | .freePage page => some page
  | _ => none

def allocatedIn (trace : Trace Regs Rdma) : List PageId :=
  trace.filterMap fun e => allocatedPage e.op e.res

def freedIn (trace : Trace Regs Rdma) : List PageId :=
  trace.filterMap fun e => freedPage e.op

def postOutcome : (o : KernelOp Regs Rdma) -> o.Res -> Option Bool
  | .postPageRead _ _ _ _, posted => some posted
  | _, _ => none

def postsIn (trace : Trace Regs Rdma) : List Bool :=
  trace.filterMap fun e => postOutcome e.op e.res

def isCompletion : (o : KernelOp Regs Rdma) -> o.Res -> Bool
  | .blockOnPageReads, .done _ => true
  | _, _ => false

def completedIn (trace : Trace Regs Rdma) : Bool :=
  trace.any fun e => isCompletion e.op e.res

/-!
## Sound batches
-/

/-- The entries of some addresses against the reads that were posted for them.  An address
that is not mapped has no read and no page, every other address has a read of what it is
mapped to, and its entry is a page only if this is the page that was read. -/
def Backed (d : HeapDescriptor Regs Rdma) :
    List Nat -> List (Option PageId) -> List PageRead -> Prop
  | [], [], reads => reads = []
  | addr :: addrs, entry :: entries, reads =>
      match d.lookupPgTable addr with
      | none => entry = none ∧ Backed d addrs entries reads
      | some pa =>
          exists r rest, reads = r :: rest ∧ r.pa = pa ∧
            (forall page, entry = some page ->
              r.page = page ∧ r.posted = true ∧ r.awaited = true) ∧
            Backed d addrs entries rest
  | _, _, _ => False

/-- What a batch read is meant to return after a trace, on a queue pair with some reads
from before. -/
structure SoundBatch (d : HeapDescriptor Regs Rdma) (addrList : List Nat)
    (before : List QueuedRead) (trace : Trace Regs Rdma) (res : List (Option PageId)) :
    Prop where
  length : res.length = addrList.length
  backed : Backed d addrList res (ownReads before trace)
  accounted : (allocatedIn trace).Perm (res.filterMap id ++ freedIn trace)

def Clear (before : List QueuedRead) : Prop := before.any QueuedRead.Outstanding = false

/-- The queue pair did what the code relies on: if the wait ended with a completion then
none of an earlier read was to come and every post went through, and if there was none
then only the last address is mapped, if any. -/
def QueueHeld (d : HeapDescriptor Regs Rdma) (addrList : List Nat) (before : List QueuedRead)
    (trace : Trace Regs Rdma) : Prop :=
  if completedIn trace then
    Clear before ∧ forall posted, posted ∈ postsIn trace -> posted = true
  else forall addr, addr ∈ addrList.dropLast -> d.lookupPgTable addr = none

/-!
## The executions of a batch
-/

section Batches

variable (d : HeapDescriptor Regs Rdma) (info : AccessInfo Rdma)

def readCalls (page : PageId) (pa : Nat) (signaled posted : Bool) : Trace Regs Rdma :=
  [⟨.allocPage, page⟩, ⟨.getDcQpKey, some ()⟩, ⟨.postPageRead page pa info signaled, posted⟩]

inductive Batched : List Nat -> List (Option PageId) -> Trace Regs Rdma -> Prop where
  | nil : Batched [] [] []
  | hole (addr : Nat) (addrs : List Nat) (entries : List (Option PageId))
      (trace : Trace Regs Rdma) (hnone : d.lookupPgTable addr = none)
      (hrest : Batched addrs entries trace) :
      Batched (addr :: addrs) (none :: entries) trace
  | posted (addr pa : Nat) (page : PageId) (posted : Bool) (addrs : List Nat)
      (entries : List (Option PageId)) (trace : Trace Regs Rdma)
      (hsome : d.lookupPgTable addr = some pa) (hmore : addrs ≠ [])
      (hrest : Batched addrs entries trace) :
      Batched (addr :: addrs) (some page :: entries)
        (readCalls info page pa false posted ++ trace)
  | completed (addr pa : Nat) (page : PageId) (posted : Bool)
      (hsome : d.lookupPgTable addr = some pa) :
      Batched [addr] [some page]
        (readCalls info page pa true posted ++ [⟨.blockOnPageReads, .done ()⟩])
  | failed (addr pa : Nat) (page : PageId) (posted : Bool) (completion : Completion Unit)
      (hsome : d.lookupPgTable addr = some pa) (hnot : completion ≠ .done ()) :
      Batched [addr] [none]
        (readCalls info page pa true posted ++
          [⟨.blockOnPageReads, completion⟩, ⟨.freePage page, ()⟩])

variable {d info}

theorem batched_of_executes {n i : Nat} {addrs : List Nat} {res out : List (Option PageId)}
    {trace : Trace Regs Rdma} (hn : i + addrs.length = n)
    (h : Executes (batchReadFrom d info n i addrs res) trace (.returned out)) :
    exists entries, out = res ++ entries ∧ Batched d info addrs entries trace := by
  induction addrs generalizing i res trace with
  | nil =>
      rcases h.of_ret with ⟨rfl, hout⟩
      cases hout
      exact ⟨[], (List.append_nil _).symm, Batched.nil⟩
  | cons addr rest ih =>
      have hn' : i + 1 + rest.length = n := by
        rw [List.length_cons] at hn
        omega
      unfold batchReadFrom at h
      cases hlookup : d.lookupPgTable addr with
      | none =>
          simp only [hlookup] at h
          rcases ih hn' h with ⟨entries, rfl, hbatched⟩
          exact ⟨none :: entries, List.append_assoc _ _ _,
            Batched.hole addr rest entries trace hlookup hbatched⟩
      | some pa =>
          simp only [hlookup, invoke_bind] at h
          rcases h.of_call with ⟨page, t₁, rfl, halloc⟩
          rcases halloc.of_call with ⟨qp, t₂, rfl, hqp⟩
          rcases hqp.of_expect with ⟨_, rfl, hpost⟩
          rcases hpost.of_call with ⟨posted, t₃, rfl, hrest⟩
          by_cases hlast : (i == n - 1) = true
          · have hnil : rest = [] := by
              have hi := beq_iff_eq.mp hlast
              apply List.eq_nil_of_length_eq_zero
              omega
            subst hnil
            rw [if_pos hlast] at hrest
            rw [hlast]
            rcases hrest.of_call with ⟨completion, t₄, rfl, hend⟩
            cases completion with
            | done =>
                rcases hend.of_ret with ⟨rfl, hout⟩
                cases hout
                exact ⟨[some page], rfl, Batched.completed addr pa page posted hlookup⟩
            | elapsed =>
                rcases hend.of_call with ⟨_, t₅, rfl, hfree⟩
                rcases hfree.of_ret with ⟨rfl, hout⟩
                cases hout
                exact ⟨[none], rfl, Batched.failed addr pa page posted .elapsed hlookup
                  (fun h => by cases h)⟩
            | failed =>
                rcases hend.of_call with ⟨_, t₅, rfl, hfree⟩
                rcases hfree.of_ret with ⟨rfl, hout⟩
                cases hout
                exact ⟨[none], rfl, Batched.failed addr pa page posted .failed hlookup
                  (fun h => by cases h)⟩
          · have hmore : rest ≠ [] := by
              rintro rfl
              apply hlast
              rw [beq_iff_eq]
              simp only [List.length_nil] at hn'
              omega
            rw [if_neg hlast] at hrest
            rcases ih hn' hrest with ⟨entries, rfl, hbatched⟩
            rw [Bool.not_eq_true] at hlast
            rw [hlast]
            exact ⟨some page :: entries, List.append_assoc _ _ _,
              Batched.posted addr pa page posted rest entries t₃ hlookup hmore hbatched⟩

theorem executes_read {page : PageId} {pa : Nat} {signaled posted : Bool}
    {k : PageId -> Bool -> KProg Regs Rdma (List (Option PageId))} {trace : Trace Regs Rdma}
    {out : Outcome (List (Option PageId))} (hrest : Executes (k page posted) trace out) :
    Executes
      (do
        let newPage ← invoke .allocPage
        let qp ← invoke .getDcQpKey
        let _ ← Prog.expect "failed to get DCQP" qp
        let posted ← invoke (.postPageRead newPage pa info signaled)
        k newPage posted)
      (readCalls info page pa signaled posted ++ trace) out := by
  apply Executes.call
  apply Executes.call
  apply Executes.call
  exact hrest

theorem Batched.executes {addrs : List Nat} {entries : List (Option PageId)}
    {trace : Trace Regs Rdma} (h : Batched d info addrs entries trace) {n i : Nat}
    (hn : i + addrs.length = n) (res : List (Option PageId)) :
    Executes (batchReadFrom d info n i addrs res) trace (.returned (res ++ entries)) := by
  induction h generalizing i res with
  | nil =>
      rw [List.append_nil]
      exact Executes.ret res
  | hole addr addrs entries trace hnone hrest ih =>
      have hstep := ih (i := i + 1) (by rw [← hn, List.length_cons]; omega) (res ++ [none])
      rw [List.append_assoc] at hstep
      unfold batchReadFrom
      simp only [hnone]
      exact hstep
  | posted addr pa page posted addrs entries trace hsome hmore hrest ih =>
      have hstep := ih (i := i + 1) (by rw [← hn, List.length_cons]; omega) (res ++ [some page])
      rw [List.append_assoc] at hstep
      have hlast : (i == n - 1) = false := by
        have hpos := List.length_pos_of_ne_nil hmore
        rw [List.length_cons] at hn
        rw [beq_eq_false_iff_ne]
        omega
      unfold batchReadFrom
      simp only [hsome]
      rw [hlast]
      apply executes_read
      exact hstep
  | completed addr pa page posted hsome =>
      have hlast : (i == n - 1) = true := by
        rw [← hn]
        exact beq_self_eq_true i
      unfold batchReadFrom
      simp only [hsome]
      rw [hlast]
      apply executes_read
      apply Executes.call
      exact Executes.ret (res ++ [some page])
  | failed addr pa page posted completion hsome hnot =>
      have hlast : (i == n - 1) = true := by
        rw [← hn]
        exact beq_self_eq_true i
      unfold batchReadFrom
      simp only [hsome]
      rw [hlast]
      apply executes_read
      apply Executes.call
      cases completion with
      | done => exact absurd rfl hnot
      | elapsed =>
          apply Executes.call
          exact Executes.ret (res ++ [none])
      | failed =>
          apply Executes.call
          exact Executes.ret (res ++ [none])

theorem Batched.length {addrs : List Nat} {entries : List (Option PageId)}
    {trace : Trace Regs Rdma} (h : Batched d info addrs entries trace) :
    entries.length = addrs.length := by
  induction h with
  | nil => rfl
  | hole addr addrs entries trace hnone hrest ih =>
      rw [List.length_cons, List.length_cons, ih]
  | posted addr pa page posted addrs entries trace hsome hmore hrest ih =>
      rw [List.length_cons, List.length_cons, ih]
  | completed addr pa page posted hsome => rfl
  | failed addr pa page posted completion hsome hnot => rfl

theorem Batched.accounted {addrs : List Nat} {entries : List (Option PageId)}
    {trace : Trace Regs Rdma} (h : Batched d info addrs entries trace) :
    (allocatedIn trace).Perm (entries.filterMap id ++ freedIn trace) := by
  induction h with
  | nil => exact List.Perm.nil
  | hole addr addrs entries trace hnone hrest ih => exact ih
  | posted addr pa page posted addrs entries trace hsome hmore hrest ih => exact ih.cons page
  | completed addr pa page posted hsome => exact List.Perm.refl [page]
  | failed addr pa page posted completion hsome hnot => exact List.Perm.refl [page]

/-!
## Which reads a batch has waited for
-/

theorem cover_false (reads : List PageRead) : reads.map (PageRead.cover false) = reads := by
  have hcover : PageRead.cover false = id := by
    funext r
    unfold PageRead.cover
    rw [Bool.or_false]
    rfl
  rw [hcover, List.map_id]

theorem pollReads_stale (covers : Bool) {before : List QueuedRead}
    (hstale : before.any QueuedRead.Outstanding = true) (later : List QueuedRead) :
    exists before', before'.length = before.length ∧
      pollReads covers (before ++ later) = before' ++ later := by
  induction before with
  | nil => cases hstale
  | cons q rest ih =>
      rw [List.cons_append, pollReads]
      by_cases hq : q.Outstanding = true
      · rw [if_pos hq]
        exact ⟨{ read := q.read.cover covers, polled := true } :: rest, rfl, rfl⟩
      · have hrest : rest.any QueuedRead.Outstanding = true := by
          rw [List.any_cons, Bool.or_eq_true] at hstale
          exact hstale.resolve_left hq
        rcases ih hrest with ⟨before', hlen, hpoll⟩
        rw [if_neg hq, hpoll]
        have hlen' : forall q' : QueuedRead, (q' :: before').length = (q :: rest).length := by
          intro q'
          rw [List.length_cons, List.length_cons, hlen]
        exact ⟨_, hlen' _, rfl⟩

theorem pollReads_clear (covers : Bool) {reads : List QueuedRead} (hclear : Clear reads)
    (last : QueuedRead) :
    (pollReads covers (reads ++ [last])).map QueuedRead.read =
      ((reads ++ [last]).map QueuedRead.read).map
        (PageRead.cover (covers && last.Outstanding)) := by
  unfold Clear at hclear
  induction reads with
  | nil =>
      rw [List.nil_append, pollReads]
      by_cases hlast : last.Outstanding = true
      · rw [if_pos hlast, hlast, Bool.and_true]
        rfl
      · rw [if_neg hlast, Bool.eq_false_iff.mpr hlast]
        rfl
  | cons q rest ih =>
      rw [List.any_cons, Bool.or_eq_false_iff] at hclear
      have hany : (rest ++ [last]).any QueuedRead.Outstanding = last.Outstanding := by
        rw [List.any_append, hclear.2, Bool.false_or, List.any_cons, List.any_nil, Bool.or_false]
      rw [List.cons_append, pollReads, if_neg (by rw [hclear.1]; exact Bool.false_ne_true),
        List.map_cons, ih hclear.2, hany]
      rfl

theorem pollReads_error (reads : List QueuedRead) :
    (pollReads false reads).map QueuedRead.read = reads.map QueuedRead.read := by
  induction reads with
  | nil => rfl
  | cons q rest ih =>
      have hcover : q.read.cover false = q.read := List.cons.inj (cover_false [q.read]) |>.1
      rw [pollReads]
      by_cases hq : q.Outstanding = true
      · rw [if_pos hq, List.map_cons, List.map_cons, hcover]
      · rw [if_neg hq, Bool.false_and, List.map_cons, List.map_cons, ih, hcover]

def pagePost : (o : KernelOp Regs Rdma) -> o.Res -> Option PageRead
  | .postPageRead page pa _ signaled, posted =>
      some { page, pa, signaled, posted, awaited := false }
  | _, _ => none

def pagePosts (trace : Trace Regs Rdma) : List PageRead :=
  trace.filterMap fun e => pagePost e.op e.res

structure WaitCovers (before : List QueuedRead) (trace : Trace Regs Rdma) (covered : Bool) :
    Prop where
  completed : covered = true -> completedIn trace = true ∧ Clear before
  covers : completedIn trace = true -> Clear before ->
    (forall posted, posted ∈ postsIn trace -> posted = true) -> covered = true
  /-- `own` are the reads of the batch that come before the trace. -/
  reads : forall own : List QueuedRead, Clear own ->
    ((readsFrom (before ++ own) trace).drop before.length).map QueuedRead.read =
      (own.map QueuedRead.read ++ pagePosts trace).map (PageRead.cover covered)

theorem Clear.append {first second : List QueuedRead} (h : Clear first) (h' : Clear second) :
    Clear (first ++ second) := by
  unfold Clear at h h' ⊢
  rw [List.any_append, h, h']
  rfl

theorem covers_completion (before : List QueuedRead) (page : PageId) (pa : Nat) (posted : Bool) :
    exists covered, WaitCovers before
      (readCalls info page pa true posted ++ [⟨.blockOnPageReads, .done ()⟩] :
        Trace Regs Rdma) covered := by
  have hread : forall own : List QueuedRead, readsFrom (before ++ own)
      (readCalls info page pa true posted ++ [⟨.blockOnPageReads, .done ()⟩] :
        Trace Regs Rdma) = pollReads true (before ++ (own ++
          [{ read := { page, pa, signaled := true, posted, awaited := false }
             polled := false }])) := by
    intro own
    rw [← List.append_assoc]
    rfl
  by_cases hclear : Clear before
  · refine ⟨posted, fun _ => ⟨rfl, hclear⟩, fun _ _ hposts => hposts posted List.mem_cons_self, ?_⟩
    intro own hown
    rw [hread, ← List.append_assoc, List.map_drop, pollReads_clear true (hclear.append hown),
      List.append_assoc, List.map_append, List.map_append, List.drop_left' (by simp)]
    have hposted : QueuedRead.Outstanding
        { read := { page, pa, signaled := true, posted, awaited := false }
          polled := false } = posted := by
      cases posted <;> rfl
    rw [hposted, List.map_append]
    rfl
  · refine ⟨false, fun h => (by cases h), fun _ h => absurd h hclear, ?_⟩
    intro own _
    rcases pollReads_stale true (Bool.not_eq_false _ |>.mp hclear) (own ++
      [{ read := { page, pa, signaled := true, posted, awaited := false }
         polled := false }]) with ⟨before', hlen, hpoll⟩
    rw [hread, hpoll, List.drop_left' hlen, cover_false, List.map_append]
    rfl

theorem covers_failure (before : List QueuedRead) (page : PageId) (pa : Nat) (posted : Bool)
    {completion : Completion Unit} (hnot : completion ≠ .done ()) :
    WaitCovers before
      (readCalls info page pa true posted ++
        [⟨.blockOnPageReads, completion⟩, ⟨.freePage page, ()⟩] : Trace Regs Rdma) false where
  completed h := by cases h
  covers hdone := by
    cases completion with
    | done => exact absurd rfl hnot
    | elapsed => cases hdone
    | failed => cases hdone
  reads := by
    intro own _
    rw [cover_false, List.map_drop]
    have hreads : (readsFrom (before ++ own) (readCalls info page pa true posted ++
        [⟨.blockOnPageReads, completion⟩, ⟨.freePage page, ()⟩] : Trace Regs Rdma)).map
          QueuedRead.read = before.map QueuedRead.read ++ (own.map QueuedRead.read ++
            [{ page, pa, signaled := true, posted, awaited := false }]) := by
      rw [← List.append_assoc, ← List.map_append]
      cases completion with
      | done => exact absurd rfl hnot
      | elapsed => exact List.map_append
      | failed => exact (pollReads_error _).trans List.map_append
    rw [hreads, List.drop_left' (List.length_map _)]
    rfl

theorem Batched.covers {addrs : List Nat} {entries : List (Option PageId)}
    {trace : Trace Regs Rdma} (h : Batched d info addrs entries trace)
    (before : List QueuedRead) : exists covered, WaitCovers before trace covered := by
  induction h with
  | nil =>
      refine ⟨false, fun h => (by cases h), fun h => (by cases h), ?_⟩
      intro own _
      rw [cover_false]
      exact (congrArg (List.map QueuedRead.read) List.drop_left).trans (List.append_nil _).symm
  | hole addr addrs entries trace hnone hrest ih => exact ih
  | posted addr pa page posted addrs entries trace hsome hmore hrest ih =>
      rcases ih with ⟨covered, hcovers⟩
      refine ⟨covered, hcovers.completed, ?_, ?_⟩
      · intro hdone hclear hposts
        exact hcovers.covers hdone hclear fun posted hposted =>
          hposts posted (List.mem_cons_of_mem _ hposted)
      · intro own hown
        have hlast : Clear
            [{ read := { page, pa, signaled := false, posted, awaited := false }
               polled := false }] := by
          rfl
        have hreads := hcovers.reads _ (hown.append hlast)
        rw [← List.append_assoc] at hreads
        refine hreads.trans (congrArg (List.map (PageRead.cover covered)) ?_)
        rw [List.map_append, List.append_assoc]
        rfl
  | completed addr pa page posted hsome => exact covers_completion before page pa posted
  | failed addr pa page posted completion hsome hnot =>
      exact ⟨false, covers_failure before page pa posted hnot⟩

/-!
## When the entries are backed
-/

theorem backed_mapped {addr pa : Nat} {addrs : List Nat} {entry : Option PageId}
    {entries : List (Option PageId)} {r : PageRead} {rest : List PageRead}
    (hsome : d.lookupPgTable addr = some pa) (hpa : r.pa = pa) :
    Backed d (addr :: addrs) (entry :: entries) (r :: rest) <->
      (forall page, entry = some page ->
        r.page = page ∧ r.posted = true ∧ r.awaited = true) ∧ Backed d addrs entries rest := by
  rw [Backed]
  simp only [hsome]
  constructor
  · rintro ⟨r', rest', hreads, _, hentry, hrest⟩
    cases hreads
    exact ⟨hentry, hrest⟩
  · rintro ⟨hentry, hrest⟩
    exact ⟨r, rest, rfl, hpa, hentry, hrest⟩

theorem unmapped_hole {addr : Nat} {addrs : List Nat} (hnone : d.lookupPgTable addr = none) :
    (forall a, a ∈ (addr :: addrs).dropLast -> d.lookupPgTable a = none) <->
      forall a, a ∈ addrs.dropLast -> d.lookupPgTable a = none := by
  cases addrs with
  | nil => exact Iff.rfl
  | cons next rest =>
      rw [List.dropLast_cons_cons]
      exact List.forall_mem_cons.trans (and_iff_right hnone)

theorem Batched.backed_cover {addrs : List Nat} {entries : List (Option PageId)}
    {trace : Trace Regs Rdma} (h : Batched d info addrs entries trace) {covered : Bool}
    (hcovered : covered = true -> completedIn trace = true) :
    Backed d addrs entries ((pagePosts trace).map (PageRead.cover covered)) <->
      if completedIn trace then
        covered = true ∧ forall posted, posted ∈ postsIn trace -> posted = true
      else forall addr, addr ∈ addrs.dropLast -> d.lookupPgTable addr = none := by
  induction h with
  | nil =>
      constructor
      · intro _ addr haddr
        cases haddr
      · intro _
        rfl
  | hole addr addrs entries trace hnone hrest ih =>
      rw [unmapped_hole hnone, ← ih hcovered, Backed]
      simp only [hnone]
      exact and_iff_right True.intro
  | posted addr pa page posted addrs entries trace hsome hmore hrest ih =>
      change Backed d (addr :: addrs) (some page :: entries)
          (_ :: (pagePosts trace).map (PageRead.cover covered)) <->
        if completedIn trace = true then
          covered = true ∧ forall p, p ∈ posted :: postsIn trace -> p = true else _
      rw [backed_mapped hsome rfl, ih hcovered]
      by_cases hdone : completedIn trace = true
      · rw [if_pos hdone, if_pos hdone]
        constructor
        · rintro ⟨hentry, hcov, hposts⟩
          exact ⟨hcov, List.forall_mem_cons.mpr ⟨(hentry page rfl).2.1, hposts⟩⟩
        · rintro ⟨hcov, hposts⟩
          rcases List.forall_mem_cons.mp hposts with ⟨hposted, hposts⟩
          refine ⟨?_, hcov, hposts⟩
          intro page' hpage
          cases hpage
          exact ⟨rfl, hposted, hcov⟩
      · -- A page that is not the last one needs a wait that completes.
        rw [if_neg hdone, if_neg hdone]
        constructor
        · rintro ⟨hentry, _⟩
          exact absurd (hcovered (hentry page rfl).2.2) hdone
        · intro hholes
          rcases List.exists_cons_of_ne_nil hmore with ⟨next, rest, rfl⟩
          have hnone := hholes addr (by
            rw [List.dropLast_cons_cons]
            exact List.mem_cons_self)
          rw [hsome] at hnone
          cases hnone
  | completed addr pa page posted hsome =>
      change Backed d [addr] [some page] [_] <->
        covered = true ∧ forall p, p ∈ [posted] -> p = true
      rw [backed_mapped hsome rfl, List.forall_mem_singleton]
      constructor
      · rintro ⟨hentry, _⟩
        exact ⟨(hentry page rfl).2.2, (hentry page rfl).2.1⟩
      · rintro ⟨hcov, hposted⟩
        refine ⟨?_, rfl⟩
        intro page' hpage
        cases hpage
        exact ⟨rfl, hposted, hcov⟩
  | failed addr pa page posted completion hsome hnot =>
      have hdone : completedIn (readCalls info page pa true posted ++
          [⟨.blockOnPageReads, completion⟩, ⟨.freePage page, ()⟩] : Trace Regs Rdma) = false := by
        cases completion with
        | done => exact absurd rfl hnot
        | elapsed => rfl
        | failed => rfl
      change Backed d [addr] [none] [_] <-> _
      rw [backed_mapped hsome rfl, hdone]
      constructor
      · intro _ a ha
        cases ha
      · intro _
        exact ⟨fun page hpage => (by cases hpage), rfl⟩

theorem Batched.backed_iff {addrs : List Nat} {entries : List (Option PageId)}
    {trace : Trace Regs Rdma} (h : Batched d info addrs entries trace)
    (before : List QueuedRead) :
    Backed d addrs entries (ownReads before trace) <-> QueueHeld d addrs before trace := by
  rcases h.covers before with ⟨covered, hcovers⟩
  have hreads := hcovers.reads [] rfl
  rw [List.append_nil, List.map_nil, List.nil_append] at hreads
  unfold ownReads QueueHeld
  rw [hreads, h.backed_cover fun hcov => (hcovers.completed hcov).1]
  by_cases hdone : completedIn trace = true
  · rw [if_pos hdone, if_pos hdone]
    constructor
    · rintro ⟨hcov, hposts⟩
      exact ⟨(hcovers.completed hcov).2, hposts⟩
    · rintro ⟨hclear, hposts⟩
      exact ⟨hcovers.covers hdone hclear hposts, hposts⟩
  · rw [if_neg hdone, if_neg hdone]

end Batches

/-- What a batch read returns is sound exactly if the queue pair held, whatever reads were
posted to it before. -/
theorem batchRead_sound_iff (d : HeapDescriptor Regs Rdma) (info : AccessInfo Rdma)
    (addrList : List Nat) (before : List QueuedRead) (trace : Trace Regs Rdma)
    (res : List (Option PageId))
    (hexec : Executes (batchReadRemotePages d addrList info) trace (.returned res)) :
    SoundBatch d addrList before trace res <-> QueueHeld d addrList before trace := by
  rcases batched_of_executes (Nat.zero_add _) hexec with ⟨entries, rfl, hbatched⟩
  rw [← hbatched.backed_iff before]
  constructor
  · intro h
    exact h.backed
  · intro hbacked
    exact ⟨hbatched.length, hbacked, hbatched.accounted⟩

def oneFrame : HeapDescriptor UInt64 UInt64 where
  regs := 0
  pageTable := Finmap.singleton 4096 28672
  vma := [{ vmStart := 4096, vmEnd := 12288, flags := 0 }]
  machineInfo := 0

theorem lookup_oneFrame : oneFrame.lookupPgTable 4096 = some 28672 :=
  Finmap.lookup_singleton_eq

def oneRead (info : AccessInfo UInt64) (page : PageId) : Trace UInt64 UInt64 :=
  readCalls info page 28672 true true ++ [⟨.blockOnPageReads, .done ()⟩]

theorem batchRead_sound_iff_once :
    SoundBatch oneFrame [4096] [] (oneRead { machineInfo := 0 } 0) [some 0] := by
  apply (batchRead_sound_iff oneFrame { machineInfo := 0 } [4096] [] _ [some 0] ?_).mpr
  · unfold QueueHeld
    rw [if_pos (by rfl)]
    exact ⟨rfl, fun posted hposted => List.mem_singleton.mp hposted⟩
  · exact (Batched.completed 4096 28672 0 true lookup_oneFrame).executes (Nat.zero_add 1) []

theorem batched_hole_last (info : AccessInfo UInt64) :
    Batched oneFrame info [4096, 8192] [some 0, none] (readCalls info 0 28672 false true ++ []) :=
  Batched.posted 4096 28672 0 true [8192] [none] [] lookup_oneFrame (by simp)
    (Batched.hole 8192 [] [] [] (by decide) Batched.nil)

theorem not_batchRead_sound_hole :
    ¬ forall (d : HeapDescriptor UInt64 UInt64) info addrList before trace res,
      Executes (batchReadRemotePages d addrList info) trace (.returned res) ->
        SoundBatch d addrList before trace res := by
  intro h
  have hsound := h oneFrame { machineInfo := 0 } [4096, 8192] [] _ _
    ((batched_hole_last { machineInfo := 0 }).executes rfl [])
  have hheld := ((batched_hole_last { machineInfo := 0 }).backed_iff []).mp hsound.backed
  have hnone : oneFrame.lookupPgTable 4096 = none := hheld 4096 List.mem_cons_self
  rw [lookup_oneFrame] at hnone
  cases hnone

def lateRead (info : AccessInfo UInt64) (page : PageId) : Trace UInt64 UInt64 :=
  readCalls info page 28672 true true ++
    [⟨.blockOnPageReads, .elapsed⟩, ⟨.freePage page, ()⟩]

/-- After a batch that timed out, the completion that the next batch waits for is not its
own, though all its posts go through. -/
example (info : AccessInfo UInt64) :
    ¬ SoundBatch oneFrame [4096] (readsFrom [] (lateRead info 0)) (oneRead info 1) [some 1] := by
  intro h
  have hbatched : Batched oneFrame info [4096] [some 1] (oneRead info 1) :=
    Batched.completed 4096 28672 1 true lookup_oneFrame
  have hheld := (hbatched.backed_iff (readsFrom [] (lateRead info 0))).mp h.backed
  cases hheld.1

end Kernel
end Dmerge
