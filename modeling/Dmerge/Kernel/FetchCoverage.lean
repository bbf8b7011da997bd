import Mathlib.Data.List.Nodup
import Dmerge.Kernel.BatchReads
import Dmerge.Kernel.EagerFetch

/-!
# Which pages an eager fetch reads

An eager fetch is meant to read each mapped page of a VMA once.  The loop keeps a full
buffer after it has fetched it, so it fetches the first twelve addresses again and again
and no address after them.
-/

namespace Dmerge
namespace Kernel

open Foundation Memory Descriptors Producer Prog

variable {Regs Rdma : Type}

/-!
## Reads and insertions
-/

def postedRead : (o : KernelOp Regs Rdma) -> o.Res -> Option (PageId × Nat)
  | .postPageRead page pa _ _, true => some (page, pa)
  | _, _ => none

def insertedPage : KernelOp Regs Rdma -> Option (Nat × PageId)
  | .vmInsertPage _ addr page => some (addr, page)
  | _ => none

def readsIn (trace : Trace Regs Rdma) : List (PageId × Nat) :=
  trace.filterMap fun e => postedRead e.op e.res

def insertsIn (trace : Trace Regs Rdma) : List (Nat × PageId) :=
  trace.filterMap fun e => insertedPage e.op

def succeeds : (o : KernelOp Regs Rdma) -> o.Res -> Bool
  | .postPageRead _ _ _ _, posted => posted
  | .blockOnPageReads, .done _ => true
  | .blockOnPageReads, _ => false
  | _, _ => true

/-- All reads of a trace succeed. -/
def Granted (trace : Trace Regs Rdma) : Prop :=
  forall e, e ∈ trace -> succeeds e.op e.res = true

/-- The page addresses of a VMA of some size. -/
def PageAddress (m : VMADescriptor) (size : UInt64) (addr : Nat) : Prop :=
  pageSize ∣ addr ∧ m.getStart ≤ addr ∧ addr < m.getStart + size.toNat

/-- Each page of a VMA that is mapped is read once and inserted where it belongs, and
there is no other read and no other insertion. -/
def FetchedOnce (d : HeapDescriptor Regs Rdma) (m : VMADescriptor) (size : UInt64)
    (trace : Trace Regs Rdma) : Prop :=
  exists fetched : List (Nat × PageId),
    (fetched.map Prod.fst).Nodup ∧
    (forall addr, addr ∈ fetched.map Prod.fst <->
      PageAddress m size addr ∧ (d.lookupPgTable addr).isSome) ∧
    ((readsIn trace).map fun r => (r.1, some r.2)).Perm
      (fetched.map fun f => (f.2, d.lookupPgTable f.1)) ∧
    (insertsIn trace).Perm fetched

theorem Granted.append {first second : Trace Regs Rdma} (h : Granted (first ++ second)) :
    Granted first ∧ Granted second :=
  ⟨fun e he => h e (List.mem_append_left _ he), fun e he => h e (List.mem_append_right _ he)⟩

/-!
## A batch
-/

section Fetches

variable (d : HeapDescriptor Regs Rdma)

def placed (addrs : List Nat) (entries : List (Option PageId)) : List (Nat × PageId) :=
  (addrs.zip entries).filterMap fun p => p.2.map fun page => (p.1, page)

def isMapped (addr : Nat) : Bool := (d.lookupPgTable addr).isSome

/-- A trace fetches some addresses: it reads and inserts a page for each that is mapped,
in this order. -/
structure Fetches (addrs : List Nat) (trace : Trace Regs Rdma) : Prop where
  reads : ((readsIn trace).map fun r => (r.1, some r.2)) =
    (insertsIn trace).map fun f => (f.2, d.lookupPgTable f.1)
  addrs : (insertsIn trace).map Prod.fst = addrs.filter (isMapped d)

variable {d} {info : AccessInfo Rdma}

theorem isMapped_of_some {addr pa : Nat} (h : d.lookupPgTable addr = some pa) :
    isMapped d addr = true := by
  unfold isMapped
  rw [h]
  rfl

theorem Fetches.nil : Fetches d [] [] := ⟨rfl, rfl⟩

theorem Fetches.append {addrs addrs' : List Nat} {trace trace' : Trace Regs Rdma}
    (h : Fetches d addrs trace) (h' : Fetches d addrs' trace') :
    Fetches d (addrs ++ addrs') (trace ++ trace') where
  reads := by
    have hreads := h.reads
    have hreads' := h'.reads
    unfold readsIn insertsIn at hreads hreads' ⊢
    rw [List.filterMap_append, List.filterMap_append, List.map_append, List.map_append,
      hreads, hreads']
  addrs := by
    have haddrs := h.addrs
    have haddrs' := h'.addrs
    unfold insertsIn at haddrs haddrs' ⊢
    rw [List.filterMap_append, List.map_append, List.filter_append, haddrs, haddrs']

theorem Batched.granted {addrs : List Nat} {entries : List (Option PageId)}
    {trace : Trace Regs Rdma} (h : Batched d info addrs entries trace)
    (hgranted : Granted trace) :
    insertsIn trace = [] ∧
      ((readsIn trace).map fun r => (r.1, some r.2)) =
        (placed addrs entries).map (fun f => (f.2, d.lookupPgTable f.1)) ∧
      (placed addrs entries).map Prod.fst = addrs.filter (isMapped d) := by
  induction h with
  | nil => exact ⟨rfl, rfl, rfl⟩
  | hole addr addrs entries trace hnone hrest ih =>
      rcases ih hgranted with ⟨hinserts, hreads, haddrs⟩
      have hmapped : isMapped d addr = false := by
        unfold isMapped
        rw [hnone]
        rfl
      refine ⟨hinserts, hreads, ?_⟩
      rw [List.filter_cons_of_neg (by rw [hmapped]; exact Bool.false_ne_true)]
      exact haddrs
  | posted addr pa page posted addrs entries trace hsome hmore hrest ih =>
      rcases hgranted.append with ⟨hread, hgranted⟩
      rcases ih hgranted with ⟨hinserts, hreads, haddrs⟩
      have hposted : posted = true :=
        hread ⟨.postPageRead page pa info false, posted⟩ (by simp [readCalls])
      subst hposted
      have hmapped := isMapped_of_some hsome
      refine ⟨hinserts, ?_, ?_⟩
      · change (page, some pa) :: _ = (page, d.lookupPgTable addr) :: _
        rw [hsome]
        exact congrArg _ hreads
      · rw [List.filter_cons_of_pos hmapped]
        exact congrArg _ haddrs
  | completed addr pa page posted hsome =>
      have hposted : posted = true :=
        hgranted ⟨.postPageRead page pa info true, posted⟩ (by simp [readCalls])
      subst hposted
      have hmapped := isMapped_of_some hsome
      refine ⟨rfl, ?_, ?_⟩
      · change [(page, some pa)] = [(page, d.lookupPgTable addr)]
        rw [hsome]
      · rw [List.filter_cons_of_pos hmapped]
        rfl
  | failed addr pa page posted completion hsome hnot =>
      have hdone : succeeds (KernelOp.blockOnPageReads : KernelOp Regs Rdma) completion = true :=
        hgranted ⟨.blockOnPageReads, completion⟩ (by simp)
      cases completion with
      | done => exact absurd rfl hnot
      | elapsed => cases hdone
      | failed => cases hdone

theorem inserts_of_executes {m : VMADescriptor} {addrs : List Nat}
    {entries : List (Option PageId)} {trace : Trace Regs Rdma}
    (h : Executes (insertPages m (addrs.zip entries)) trace (.returned ())) :
    insertsIn trace = placed addrs entries ∧ readsIn trace = [] := by
  induction addrs generalizing entries trace with
  | nil =>
      rcases h.of_ret with ⟨rfl, _⟩
      exact ⟨rfl, rfl⟩
  | cons addr addrs ih =>
      cases entries with
      | nil =>
          rcases h.of_ret with ⟨rfl, _⟩
          exact ⟨rfl, rfl⟩
      | cons entry entries =>
          cases entry with
          | none => exact ih h
          | some page =>
              rcases h.of_call with ⟨_, rest, rfl, hrest⟩
              rcases ih hrest with ⟨hinserts, hreads⟩
              exact ⟨congrArg (List.cons (addr, page)) hinserts, hreads⟩

theorem fetches_of_batch {m : VMADescriptor} {addrBuf : List Nat} {trace : Trace Regs Rdma}
    (h : Executes (fetchBatch d m info addrBuf) trace (.returned ()))
    (hgranted : Granted trace) : Fetches d addrBuf trace := by
  rcases h.of_bind with ⟨first, entries, second, rfl, hread, hinsert⟩
  rcases batched_of_executes (Nat.zero_add _) hread with ⟨entries, rfl, hbatched⟩
  rcases hbatched.granted hgranted.append.1 with ⟨hnone, hreads, haddrs⟩
  rcases inserts_of_executes hinsert with ⟨hinserts, hnoReads⟩
  have hinsertsAll : insertsIn (first ++ second) = placed addrBuf entries := by
    rw [← hinserts]
    unfold insertsIn at hnone ⊢
    rw [List.filterMap_append, hnone, List.nil_append]
  have hreadsAll : readsIn (first ++ second) = readsIn first := by
    unfold readsIn at hnoReads ⊢
    rw [List.filterMap_append, hnoReads, List.append_nil]
  constructor
  · rw [hreadsAll, hinsertsAll]
    exact hreads
  · rw [hinsertsAll]
    exact haddrs

/-!
## The loop
-/

def fetchOrder (addrs : List Nat) : List Nat :=
  (List.replicate (addrs.length + 1 - batchLen) (addrs.take batchLen)).flatten ++
    addrs.take batchLen

theorem fetches_of_loop {m : VMADescriptor} {addrs addrBuf out : List Nat}
    {trace : Trace Regs Rdma} (hbuf : addrBuf.length ≤ batchLen)
    (h : Executes (eagerFetchLoop d m info addrs addrBuf) trace (.returned out))
    (hgranted : Granted trace) :
    out = addrBuf ++ addrs.take (batchLen - addrBuf.length) ∧
      Fetches d (List.replicate (min addrs.length (addrBuf.length + addrs.length + 1 - batchLen))
        (addrBuf ++ addrs.take (batchLen - addrBuf.length))).flatten trace := by
  induction addrs generalizing addrBuf trace with
  | nil =>
      rcases h.of_ret with ⟨rfl, hout⟩
      cases hout
      rw [List.take_nil, List.append_nil, List.length_nil, Nat.zero_min]
      exact ⟨rfl, Fetches.nil⟩
  | cons addr rest ih =>
      have hpushed := pushed_take addrBuf rest addr
      have hlength : (if addrBuf.length < batchLen then addrBuf ++ [addr] else addrBuf).length =
          min (addrBuf.length + 1) batchLen := by
        split
        · rw [List.length_append, List.length_singleton]
          omega
        · omega
      unfold eagerFetchLoop at h
      simp only at h
      generalize (if addrBuf.length < batchLen then addrBuf ++ [addr] else addrBuf) = buf
        at hpushed hlength h
      rcases h.of_bind with ⟨first, _, second, rfl, hfull, hloop⟩
      rcases hgranted.append with ⟨hfirst, hsecond⟩
      have hroom : buf.length ≤ batchLen := by
        omega
      rcases ih hroom hloop hsecond with ⟨hout, hfetches⟩
      rw [hpushed] at hout hfetches
      refine ⟨hout, ?_⟩
      rw [List.length_cons]
      unfold fetchFull at hfull
      by_cases heq : batchLen = buf.length
      · rw [if_pos heq] at hfull
        have hwhole : buf = addrBuf ++ (addr :: rest).take (batchLen - addrBuf.length) := by
          rw [← hpushed, ← heq, Nat.sub_self, List.take_zero, List.append_nil]
        have hcount : min (rest.length + 1) (addrBuf.length + (rest.length + 1) + 1 - batchLen) =
            min rest.length (buf.length + rest.length + 1 - batchLen) + 1 := by
          omega
        have hfetched := fetches_of_batch hfull hfirst
        rw [hwhole] at hfetched
        rw [hcount, List.replicate_succ, List.flatten_cons]
        exact hfetched.append hfetches
      · rw [if_neg heq] at hfull
        rcases hfull.of_ret with ⟨rfl, _⟩
        have hcount : min (rest.length + 1) (addrBuf.length + (rest.length + 1) + 1 - batchLen) =
            min rest.length (buf.length + rest.length + 1 - batchLen) := by
          omega
        rw [hcount]
        exact hfetches

theorem fetches_of_fetchAll {m : VMADescriptor} {addrs : List Nat} {trace : Trace Regs Rdma}
    (h : Executes (fetchAll d m info addrs) trace (.returned ())) (hgranted : Granted trace) :
    Fetches d (fetchOrder addrs) trace := by
  rcases h.of_bind with ⟨first, out, second, rfl, hloop, hlast⟩
  rcases hgranted.append with ⟨hfirst, hsecond⟩
  rcases fetches_of_loop (Nat.zero_le _) hloop hfirst with ⟨rfl, hfetches⟩
  have hcount : min addrs.length (([] : List Nat).length + addrs.length + 1 - batchLen) =
      addrs.length + 1 - batchLen := by
    rw [List.length_nil]
    unfold batchLen
    omega
  rw [hcount] at hfetches
  unfold fetchOrder
  apply hfetches.append
  change Executes (if ¬ (addrs.take batchLen).isEmpty then
    fetchBatch d m info (addrs.take batchLen) else _) second _ at hlast
  by_cases hempty : (addrs.take batchLen).isEmpty
  · rw [if_neg (not_not_intro hempty)] at hlast
    rcases hlast.of_ret with ⟨rfl, _⟩
    rw [List.isEmpty_iff.mp hempty]
    exact Fetches.nil
  · rw [if_pos hempty] at hlast
    exact fetches_of_batch hlast hsecond

theorem fetches_of_eagerFetch {lib : KernelLib Regs Rdma} {m : VMADescriptor} {size : UInt64}
    {trace : Trace Regs Rdma} (hsz : lib.getSz m = some size)
    (h : Executes (eagerFetchVma lib d m info) trace (.returned ())) (hgranted : Granted trace) :
    Fetches d (fetchOrder (stepAddrs m.getStart (m.getStart + size.toNat))) trace := by
  unfold eagerFetchVma at h
  rw [hsz] at h
  rcases h.of_expect with ⟨size', hsize, h⟩
  cases hsize
  rcases h.of_expect with ⟨stop, hstop, h⟩
  unfold addWords at hstop
  split at hstop
  · cases hstop
    exact fetches_of_fetchAll h hgranted
  · cases hstop

end Fetches

/-!
## Coverage
-/

theorem mem_stepAddrs_iff {start stop : Nat} (hstart : pageSize ∣ start) (addr : Nat) :
    addr ∈ stepAddrs start stop <-> pageSize ∣ addr ∧ start ≤ addr ∧ addr < stop := by
  unfold stepAddrs
  rw [List.mem_map]
  unfold pageSize at hstart ⊢
  constructor
  · rintro ⟨i, hi, rfl⟩
    have hi : i < (stop - start + (4096 - 1)) / 4096 := List.mem_range.mp hi
    refine ⟨?_, ?_, ?_⟩
    · exact Nat.dvd_add hstart (Nat.dvd_mul_right _ _)
    · omega
    · omega
  · rintro ⟨hpage, hlow, hhigh⟩
    refine ⟨(addr - start) / 4096, List.mem_range.mpr ?_, ?_⟩
    · omega
    · omega

theorem nodup_stepAddrs (start stop : Nat) : (stepAddrs start stop).Nodup := by
  apply List.Nodup.map _ List.nodup_range
  intro i j h
  have hsame : pageSize * i = pageSize * j := Nat.add_left_cancel h
  exact Nat.eq_of_mul_eq_mul_left (Nat.zero_lt_succ 4095) hsame

theorem length_stepAddrs_lt (start : Nat) {size : Nat} (hsize : pageSize ∣ size) :
    (stepAddrs start (start + size)).length < batchLen <-> size < batchLen * pageSize := by
  unfold stepAddrs
  rw [List.length_map, List.length_range, Nat.add_sub_cancel_left]
  unfold pageSize batchLen at *
  omega

theorem fetchOrder_short {addrs : List Nat} (h : addrs.length < batchLen) :
    fetchOrder addrs = addrs := by
  have hcount : addrs.length + 1 - batchLen = 0 := by
    omega
  unfold fetchOrder
  rw [hcount, List.replicate_zero, List.flatten_nil, List.nil_append,
    List.take_of_length_le (Nat.le_of_lt h)]

theorem mem_fetchOrder {addrs : List Nat} {addr : Nat} (h : addr ∈ fetchOrder addrs) :
    addr ∈ addrs.take batchLen := by
  rcases List.mem_append.mp h with hloop | hlast
  · rcases List.mem_flatten.mp hloop with ⟨batch, hbatch, haddr⟩
    rw [List.eq_of_mem_replicate hbatch] at haddr
    exact haddr
  · exact hlast

theorem not_nodup_fetchOrder {addrs : List Nat} {p : Nat -> Bool} {addr : Nat}
    (hlong : batchLen ≤ addrs.length) (haddr : addr ∈ (fetchOrder addrs).filter p) :
    ¬ ((fetchOrder addrs).filter p).Nodup := by
  intro hnodup
  rcases List.mem_filter.mp haddr with ⟨hin, hp⟩
  have hcount : addrs.length + 1 - batchLen = addrs.length - batchLen + 1 := by
    omega
  have htake := mem_fetchOrder hin
  unfold fetchOrder at hnodup
  rw [hcount, List.replicate_succ, List.flatten_cons, List.append_assoc] at hnodup
  rw [List.filter_append] at hnodup
  have hdisjoint := List.disjoint_of_nodup_append hnodup
  apply hdisjoint (List.mem_filter.mpr ⟨htake, hp⟩)
  exact List.mem_filter.mpr ⟨List.mem_append_right _ htake, hp⟩

theorem Fetches.once_iff {d : HeapDescriptor Regs Rdma} {m : VMADescriptor} {size : UInt64}
    {order : List Nat} {trace : Trace Regs Rdma} (h : Fetches d order trace) :
    FetchedOnce d m size trace <->
      (order.filter (isMapped d)).Nodup ∧
        forall addr, addr ∈ order.filter (isMapped d) <->
          PageAddress m size addr ∧ (d.lookupPgTable addr).isSome := by
  rw [← h.addrs]
  constructor
  · rintro ⟨fetched, hnodup, hcovers, _, hinserts⟩
    have haddrs := hinserts.map Prod.fst
    constructor
    · exact haddrs.nodup_iff.mpr hnodup
    · intro addr
      exact haddrs.mem_iff.trans (hcovers addr)
  · rintro ⟨hnodup, hcovers⟩
    exact ⟨insertsIn trace, hnodup, hcovers, List.Perm.of_eq h.reads, List.Perm.refl _⟩

/-- An eager fetch covers each mapped page once exactly if the VMA is smaller than a
batch, or if nothing of it is mapped. -/
theorem eagerFetch_once_iff (lib : KernelLib Regs Rdma) (d : HeapDescriptor Regs Rdma)
    (m : VMADescriptor) (size : UInt64) (info : AccessInfo Rdma) (trace : Trace Regs Rdma)
    (hsz : lib.getSz m = some size) (hstart : pageSize ∣ m.getStart)
    (hsize : pageSize ∣ size.toNat)
    (hexec : Executes (eagerFetchVma lib d m info) trace (.returned ()))
    (hgranted : Granted trace) :
    FetchedOnce d m size trace <->
      size.toNat < batchLen * pageSize ∨
        forall addr, PageAddress m size addr -> d.lookupPgTable addr = none := by
  rw [(fetches_of_eagerFetch hsz hexec hgranted).once_iff,
    ← length_stepAddrs_lt m.getStart hsize]
  generalize hsteps : stepAddrs m.getStart (m.getStart + size.toNat) = steps
  have hmem : forall addr, addr ∈ steps <-> PageAddress m size addr := by
    rw [← hsteps]
    exact mem_stepAddrs_iff hstart
  constructor
  · rintro ⟨hnodup, hcovers⟩
    by_cases hshort : steps.length < batchLen
    · exact Or.inl hshort
    · apply Or.inr
      intro addr hpage
      cases hlookup : d.lookupPgTable addr with
      | none => rfl
      | some pa =>
          have hin := (hcovers addr).mpr ⟨hpage, by rw [hlookup]; rfl⟩
          exact absurd hnodup (not_nodup_fetchOrder (Nat.not_lt.mp hshort) hin)
  · intro h
    cases h with
    | inl hshort =>
        rw [fetchOrder_short hshort]
        constructor
        · rw [← hsteps]
          exact (nodup_stepAddrs _ _).filter _
        · intro addr
          rw [List.mem_filter, hmem]
          exact Iff.rfl
    | inr hholes =>
        have hnone : (fetchOrder steps).filter (isMapped d) = [] := by
          apply List.filter_eq_nil_iff.mpr
          intro addr haddr
          have hpage := (hmem addr).mp (List.mem_of_mem_take (mem_fetchOrder haddr))
          unfold isMapped
          rw [hholes addr hpage]
          exact Bool.false_ne_true
        rw [hnone]
        constructor
        · exact List.nodup_nil
        · intro addr
          constructor
          · intro hin
            cases hin
          · rintro ⟨hpage, hsome⟩
            rw [hholes addr hpage] at hsome
            cases hsome

def obligedFetch (d : HeapDescriptor UInt64 UInt64) (m : VMADescriptor) : Trace UInt64 UInt64 :=
  (eagerFetchVma plainLib d m { machineInfo := 0 }).record
    (fun o s => (obliging none [] o, s)) ()

theorem eagerFetch_once_iff_small :
    FetchedOnce oneFrame { vmStart := 4096, vmEnd := 12288, flags := 0 } 8192
      (obligedFetch oneFrame { vmStart := 4096, vmEnd := 12288, flags := 0 }) := by
  apply (eagerFetch_once_iff plainLib oneFrame _ 8192 { machineInfo := 0 } _ (by rfl)
    (by decide) (by decide) (executes_record _ _ ()) ?_).mpr
  · apply Or.inl
    decide
  · unfold Granted
    decide +kernel

/-- Twelve pages, the first of which is mapped, are fetched twice. -/
theorem not_eagerFetch_once_twelve :
    ¬ forall (lib : KernelLib UInt64 UInt64) (d : HeapDescriptor UInt64 UInt64) m size info trace,
      lib.getSz m = some size -> pageSize ∣ m.getStart -> pageSize ∣ size.toNat ->
        Executes (eagerFetchVma lib d m info) trace (.returned ()) ->
          Granted trace -> FetchedOnce d m size trace := by
  intro h
  have hfetched := h plainLib oneFrame { vmStart := 4096, vmEnd := 53248, flags := 0 } 49152
    { machineInfo := 0 } (obligedFetch oneFrame { vmStart := 4096, vmEnd := 53248, flags := 0 })
    (by rfl) (by decide) (by decide) (executes_record _ _ ())
    (by unfold Granted; decide +kernel)
  rcases hfetched with ⟨fetched, hnodup, _, _, hinserts⟩
  have htwice : (insertsIn (obligedFetch oneFrame
      { vmStart := 4096, vmEnd := 53248, flags := 0 })).map Prod.fst = [4096, 4096] := by
    decide +kernel
  have hperm := hinserts.map Prod.fst
  rw [htwice] at hperm
  exact absurd (hperm.nodup_iff.mpr hnodup) (by decide)

end Kernel
end Dmerge
