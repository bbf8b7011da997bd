import Dmerge.Kernel.PullOutcome

/-!
# Page faults after several pulls

The heaps that a handle has pulled stay in the order of the pulls, and a fault
searches them from the oldest one on.  A heap that maps the address but cannot
be read is passed over.
-/

namespace Dmerge
namespace Kernel

open Foundation Memory Descriptors Producer Prog

variable {Regs Rdma : Type}

/-!
## The first element that succeeds
-/

def firstReadable {alpha : Type} (ok : Nat -> Bool) : List alpha -> Option alpha
  | [] => none
  | x :: rest => if ok 0 = true then some x else firstReadable (fun j => ok (j + 1)) rest

def FirstAt (ok : Nat -> Bool) (k : Nat) : Prop :=
  ok k = true ∧ forall j, j < k -> ok j = false

theorem firstAt_succ {ok : Nat -> Bool} {k : Nat} (hok : ok 0 = false) :
    FirstAt ok (k + 1) <-> FirstAt (fun j => ok (j + 1)) k := by
  constructor
  · intro h
    exact ⟨h.1, fun j hj => h.2 (j + 1) (Nat.succ_lt_succ hj)⟩
  · intro h
    refine ⟨h.1, fun j hj => ?_⟩
    cases j with
    | zero => exact hok
    | succ j => exact h.2 j (Nat.lt_of_succ_lt_succ hj)

theorem firstAt_zero {ok : Nat -> Bool} {k : Nat} (hok : ok 0 = true) :
    FirstAt ok k <-> k = 0 := by
  constructor
  · intro h
    cases k with
    | zero => rfl
    | succ k =>
        have hzero := h.2 0 (Nat.succ_pos k)
        rw [hok] at hzero
        cases hzero
  · intro h
    subst h
    exact ⟨hok, fun j hj => absurd hj (Nat.not_lt_zero j)⟩

theorem firstReadable_eq_some_iff {alpha : Type} {ok : Nat -> Bool} {xs : List alpha}
    {x : alpha} : firstReadable ok xs = some x <-> exists k, xs[k]? = some x ∧ FirstAt ok k := by
  induction xs generalizing ok with
  | nil => simp [firstReadable]
  | cons y rest ih =>
      unfold firstReadable
      cases hok : ok 0 with
      | true =>
          rw [if_pos rfl]
          constructor
          · intro h
            exact ⟨0, h, (firstAt_zero hok).mpr rfl⟩
          · intro h
            rcases h with ⟨k, hk, hat⟩
            rw [(firstAt_zero hok).mp hat] at hk
            exact hk
      | false =>
          rw [if_neg (by decide), ih]
          constructor
          · intro h
            rcases h with ⟨k, hk, hat⟩
            exact ⟨k + 1, hk, (firstAt_succ hok).mpr hat⟩
          · intro h
            rcases h with ⟨k, hk, hat⟩
            cases k with
            | zero =>
                rw [hat.1] at hok
                cases hok
            | succ k => exact ⟨k, hk, (firstAt_succ hok).mp hat⟩

theorem firstReadable_isSome {alpha : Type} {ok : Nat -> Bool} {xs : List alpha} {k : Nat}
    (hk : k < xs.length) (hok : ok k = true) : (firstReadable ok xs).isSome := by
  induction xs generalizing ok k with
  | nil => exact absurd hk (Nat.not_lt_zero k)
  | cons y rest ih =>
      unfold firstReadable
      cases hzero : ok 0 with
      | true => rfl
      | false =>
          cases k with
          | zero =>
              rw [hok] at hzero
              cases hzero
          | succ k => exact ih (Nat.lt_of_succ_lt_succ hk) hok

/-!
## A fault
-/

abbrev RemotePage (Rdma : Type) := Nat × Rdma

/-- What the kernel answers during a fault; the attempts to read a page are
numbered. -/
structure FaultAnswers (Regs Rdma : Type) where
  canAccess : Nat -> Bool
  canRead : Nat -> Bool
  other : (o : KernelOp Regs Rdma) -> o.Res

def FaultAnswers.readable (f : FaultAnswers Regs Rdma) (attempt : Nat) : Bool :=
  f.canAccess attempt && f.canRead attempt

structure FaultWorld (Rdma : Type) where
  /-- The number of `AccessInfo::new` so far. -/
  attempts : Nat
  nextPage : PageId
  /-- What the local pages were filled with. -/
  filled : PageId -> Option (RemotePage Rdma)

def FaultWorld.start : FaultWorld Rdma where
  attempts := 0
  nextPage := 0
  filled _ := none

def FaultAnswers.answer (f : FaultAnswers Regs Rdma) :
    (o : KernelOp Regs Rdma) -> FaultWorld Rdma -> o.Res × FaultWorld Rdma
  | .accessInfoNew machineInfo, w =>
      (if f.canAccess w.attempts = true then some { machineInfo := machineInfo } else none,
        { w with attempts := w.attempts + 1 })
  | .allocPage, w => (w.nextPage, { w with nextPage := w.nextPage + 1 })
  | .remoteRead page pa info, w =>
      let ok := f.canRead (w.attempts - 1)
      (ok, if ok = true then
          { w with filled := Function.update w.filled page (some (pa, info.machineInfo)) }
        else w)
  | o, w => (f.other o, w)

/-- The page that a descriptor maps at an address. -/
def mappedPage (d : HeapDescriptor Regs Rdma) (va : Nat) : Option (RemotePage Rdma) :=
  (d.lookupPgTable va).map fun pa => (pa, d.machineInfo)

/-- The pages that descriptors map at an address, in order. -/
def mappedPages (va : Nat) (ds : List (HeapDescriptor Regs Rdma)) : List (RemotePage Rdma) :=
  ds.filterMap fun d => mappedPage d va

theorem mappedPages_cons_none {va : Nat} {d : HeapDescriptor Regs Rdma}
    (ds : List (HeapDescriptor Regs Rdma)) (h : d.lookupPgTable va = none) :
    mappedPages va (d :: ds) = mappedPages va ds := by
  unfold mappedPages mappedPage
  simp only [List.filterMap_cons, h, Option.map_none]

theorem mappedPages_cons_some {va pa : Nat} {d : HeapDescriptor Regs Rdma}
    (ds : List (HeapDescriptor Regs Rdma)) (h : d.lookupPgTable va = some pa) :
    mappedPages va (d :: ds) = (pa, d.machineInfo) :: mappedPages va ds := by
  unfold mappedPages mappedPage
  simp only [List.filterMap_cons, h, Option.map_some]

def Finds (r : Outcome (Option PageId) × FaultWorld Rdma) : Option (RemotePage Rdma) -> Prop
  | some page => exists newPage, r.1 = .returned (some newPage) ∧ r.2.filled newPage = some page
  | none => r.1 = .returned none

/-- A fault serves the given page, or it is a segmentation fault. -/
def ServesPage (r : Outcome FaultResult × FaultWorld Rdma) : Option (RemotePage Rdma) -> Prop
  | some page => exists newPage, r.1 = .returned (.page newPage) ∧ r.2.filled newPage = some page
  | none => r.1 = .returned .sigsegv

theorem ServesPage.unique {r : Outcome FaultResult × FaultWorld Rdma}
    {page page' : Option (RemotePage Rdma)} (h : ServesPage r page) (h' : ServesPage r page') :
    page = page' := by
  cases page with
  | none =>
      cases page' with
      | none => rfl
      | some page' =>
          rcases h' with ⟨newPage, hend, _⟩
          rw [show r.1 = .returned .sigsegv from h] at hend
          cases hend
  | some page =>
      rcases h with ⟨newPage, hend, hfilled⟩
      cases page' with
      | none =>
          rw [show r.1 = .returned .sigsegv from h'] at hend
          cases hend
      | some page' =>
          rcases h' with ⟨newPage', hend', hfilled'⟩
          rw [hend] at hend'
          cases hend'
          rw [← hfilled, ← hfilled']

section Faults

variable (f : FaultAnswers Regs Rdma)

theorem run_findPage (va : Nat) (heaps : List (HeapDataStruct Regs Rdma))
    (w : FaultWorld Rdma) :
    Finds ((findPage va heaps).run f.answer w)
      (firstReadable (fun j => f.readable (w.attempts + j))
        (mappedPages va (heaps.map HeapDataStruct.descriptor))) := by
  induction heaps generalizing w with
  | nil => rfl
  | cons heap rest ih =>
      unfold findPage readRemotePage
      cases hlookup : heap.descriptor.lookupPgTable va with
      | none =>
          rw [List.map_cons, mappedPages_cons_none _ hlookup]
          exact ih w
      | some pa =>
          rw [List.map_cons, mappedPages_cons_some _ hlookup]
          have hnext : (fun j => f.readable (w.attempts + (j + 1))) =
              fun j => f.readable (w.attempts + 1 + j) := by
            funext j
            rw [Nat.add_assoc, Nat.add_comm 1 j]
          simp only [invoke_bind, run_call, FaultAnswers.answer, firstReadable, hnext,
            Nat.add_zero]
          unfold FaultAnswers.readable
          cases haccess : f.canAccess w.attempts with
          | false => exact ih { w with attempts := w.attempts + 1 }
          | true =>
              simp only [if_true, run_call, call_bind, FaultAnswers.answer]
              rw [Nat.add_sub_cancel]
              cases hread : f.canRead w.attempts with
              | false => exact ih { w with attempts := w.attempts + 1, nextPage := w.nextPage + 1 }
              | true => exact ⟨w.nextPage, rfl, Function.update_self _ _ _⟩

theorem run_handlePageFault (va : Nat) (heaps : List (HeapDataStruct Regs Rdma)) :
    ServesPage ((handlePageFault heaps va).run f.answer FaultWorld.start)
      (firstReadable f.readable
        (mappedPages va (heaps.map HeapDataStruct.descriptor))) := by
  have hfinds : Finds ((findPage va heaps).run f.answer FaultWorld.start)
      (firstReadable f.readable (mappedPages va (heaps.map HeapDataStruct.descriptor))) := by
    simpa only [FaultWorld.start, Nat.zero_add] using run_findPage f va heaps FaultWorld.start
  unfold handlePageFault
  rw [run_bind]
  cases hrun : (findPage va heaps).run f.answer FaultWorld.start with
  | mk out w =>
      rw [hrun] at hfinds
      cases hfirst : firstReadable f.readable
          (mappedPages va (heaps.map HeapDataStruct.descriptor)) with
      | none =>
          rw [hfirst] at hfinds
          rw [show out = .returned none from hfinds]
          rfl
      | some page =>
          rw [hfirst] at hfinds
          rcases hfinds with ⟨newPage, hend, hfilled⟩
          rw [show out = .returned (some newPage) from hend]
          exact ⟨newPage, rfl, hfilled⟩

end Faults

/-!
## A sequence of pulls
-/

structure PullCall (Regs Rdma : Type) where
  hint : UInt64
  machineId : UInt64
  eagerFetch : Bool
  answers : PullAnswers Regs Rdma

/-- Pulls of one handle, one after the other, that all return 0. -/
def runPulls (lib : KernelLib Regs Rdma) :
    List (PullCall Regs Rdma) -> PullWorld Regs Rdma -> Option (PullWorld Regs Rdma)
  | [], w => some w
  | p :: rest, w =>
      match (syscallRmap lib p.hint p.machineId p.eagerFetch).run p.answers.answer
          (PullWorld.start w.mapped w.publicHeaps) with
      | (.returned 0, w') => runPulls lib rest w'
      | _ => none

/-- The descriptors that a sequence of pulls fetches. -/
def fetchedDescriptors (lib : KernelLib Regs Rdma) (pulls : List (PullCall Regs Rdma)) :
    List (HeapDescriptor Regs Rdma) :=
  pulls.filterMap fun p => p.answers.descriptor lib

theorem descriptors_of_pull {lib : KernelLib Regs Rdma} {p : PullCall Regs Rdma}
    {w w' : PullWorld Regs Rdma}
    (hrun : (syscallRmap lib p.hint p.machineId p.eagerFetch).run p.answers.answer
      (PullWorld.start w.mapped w.publicHeaps) = (.returned 0, w')) :
    exists des, p.answers.descriptor lib = some des ∧
      w'.publicHeaps.map HeapDataStruct.descriptor =
        w.publicHeaps.map HeapDataStruct.descriptor ++ [des] := by
  have hends : PullEndsWith p.answers p.hint (p.answers.descriptor lib)
      (PullWorld.start w.mapped w.publicHeaps) (.returned 0, w') := by
    rw [← hrun]
    exact run_syscallRmap lib p.machineId p.eagerFetch rfl
  cases hdes : p.answers.descriptor lib with
  | none =>
      rw [hdes] at hends
      cases hends.2 0 rfl
  | some des =>
      rw [hdes] at hends
      rcases hends 0 rfl with ⟨_, _, info, hheaps⟩
      refine ⟨des, rfl, ?_⟩
      rw [show w'.publicHeaps = _ from hheaps, List.map_append]
      rfl

theorem descriptors_of_pulls {lib : KernelLib Regs Rdma} {pulls : List (PullCall Regs Rdma)}
    {w w' : PullWorld Regs Rdma} (hpulls : runPulls lib pulls w = some w') :
    w'.publicHeaps.map HeapDataStruct.descriptor =
      w.publicHeaps.map HeapDataStruct.descriptor ++ fetchedDescriptors lib pulls := by
  induction pulls generalizing w with
  | nil =>
      cases hpulls
      exact (List.append_nil _).symm
  | cons p rest ih =>
      unfold runPulls at hpulls
      split at hpulls
      · next w'' hrun =>
          rcases descriptors_of_pull hrun with ⟨des, hdes, happend⟩
          rw [ih hpulls, happend, List.append_assoc]
          simp only [fetchedDescriptors, List.filterMap_cons, hdes, List.singleton_append]
      · cases hpulls

def Contains (va : Nat) (d : HeapDescriptor Regs Rdma) : Prop :=
  exists m, m ∈ d.vma ∧ m.Covers va

/-- The most recent descriptor whose VMAs contain an address. -/
def LatestAt (va : Nat) (ds : List (HeapDescriptor Regs Rdma)) (d : HeapDescriptor Regs Rdma) :
    Prop :=
  exists older newer, ds = older ++ d :: newer ∧ Contains va d ∧
    forall d', d' ∈ newer -> ¬ Contains va d'

/-- The first of the pages mapped at an address that can be read is the page of the
given descriptor, and if this maps one then some page can be read. -/
def OldestAgrees (readable : Nat -> Bool) (pages : List (RemotePage Rdma))
    (wanted : Option (RemotePage Rdma)) : Prop :=
  (forall k page, pages[k]? = some page -> FirstAt readable k -> wanted = some page) ∧
    (wanted ≠ none -> exists k, k < pages.length ∧ readable k = true)

theorem firstReadable_eq_iff {readable : Nat -> Bool} {pages : List (RemotePage Rdma)}
    {wanted : Option (RemotePage Rdma)} :
    firstReadable readable pages = wanted <-> OldestAgrees readable pages wanted := by
  constructor
  · intro h
    subst h
    constructor
    · intro k page hk hat
      exact firstReadable_eq_some_iff.mpr ⟨k, hk, hat⟩
    · intro hsome
      rcases Option.ne_none_iff_exists'.mp hsome with ⟨page, hpage⟩
      rcases firstReadable_eq_some_iff.mp hpage with ⟨k, hk, hat⟩
      exact ⟨k, (List.getElem?_eq_some_iff.mp hk).1, hat.1⟩
  · intro h
    cases hfirst : firstReadable readable pages with
    | some page =>
        rcases firstReadable_eq_some_iff.mp hfirst with ⟨k, hk, hat⟩
        exact (h.1 k page hk hat).symm
    | none =>
        by_contra hne
        rcases h.2 (Ne.symm hne) with ⟨k, hk, hok⟩
        have hisSome := firstReadable_isSome hk hok
        rw [hfirst] at hisSome
        cases hisSome

/-- After pulls that returned 0, a fault in the VMAs of the latest of them serves its
page exactly when the oldest pull whose page can be read there agrees with it. -/
theorem fault_serves_latest_iff (lib : KernelLib Regs Rdma) (pulls : List (PullCall Regs Rdma))
    (f : FaultAnswers Regs Rdma) (va : Nat) {w : PullWorld Regs Rdma}
    (hpulls : runPulls lib pulls (PullWorld.start [] []) = some w) :
    (forall latest, LatestAt va (fetchedDescriptors lib pulls) latest ->
      ServesPage ((handlePageFault w.publicHeaps va).run f.answer FaultWorld.start)
        (mappedPage latest va)) <->
      forall latest, LatestAt va (fetchedDescriptors lib pulls) latest ->
        OldestAgrees f.readable (mappedPages va (fetchedDescriptors lib pulls))
          (mappedPage latest va) := by
  have hserves := run_handlePageFault f va w.publicHeaps
  have hds : w.publicHeaps.map HeapDataStruct.descriptor = fetchedDescriptors lib pulls :=
    descriptors_of_pulls hpulls
  rw [hds] at hserves
  constructor
  · intro h latest hlatest
    apply firstReadable_eq_iff.mp
    exact hserves.unique (h latest hlatest)
  · intro h latest hlatest
    rw [← firstReadable_eq_iff.mpr (h latest hlatest)]
    exact hserves

def onePage (frame : UInt64) : ParentDescriptor UInt64 UInt64 where
  regs := 0
  pageTable := [[(0, frame)]]
  vma := [{ vmStart := 4096, vmEnd := 8192, flags := 0 }]
  machineInfo := 0

def pullOnePage (frame : UInt64) : PullCall UInt64 UInt64 where
  hint := 1
  machineId := 0
  eagerFetch := false
  answers := answersFor (onePage frame) fun _ => true

def readAll : FaultAnswers UInt64 UInt64 where
  canAccess _ := true
  canRead _ := true
  other := obliging none []

def faultOnePage (w : PullWorld UInt64 UInt64) :
    Outcome FaultResult × Option (RemotePage UInt64) :=
  let r := (handlePageFault w.publicHeaps 4096).run readAll.answer FaultWorld.start
  (r.1, r.2.filled 0)

theorem fault_serves_latest_iff_once :
    exists w, runPulls plainLib [pullOnePage 28672] (PullWorld.start [] []) = some w ∧
      forall latest, LatestAt 4096 (fetchedDescriptors plainLib [pullOnePage 28672]) latest ->
        ServesPage ((handlePageFault w.publicHeaps 4096).run readAll.answer FaultWorld.start)
          (mappedPage latest 4096) := by
  have hobserved : (runPulls plainLib [pullOnePage 28672] (PullWorld.start [] [])).map
      (fun w => w.publicHeaps.length) = some 1 := by
    decide +kernel
  have hmapped : (fetchedDescriptors plainLib [pullOnePage 28672]).map
      (fun d => mappedPage d 4096) = [some (28672, 0)] := by
    decide +kernel
  have hpages : mappedPages 4096 (fetchedDescriptors plainLib [pullOnePage 28672]) =
      [(28672, 0)] := by
    decide +kernel
  rcases Option.map_eq_some_iff.mp hobserved with ⟨w, hpulls, _⟩
  refine ⟨w, hpulls, ?_⟩
  apply (fault_serves_latest_iff plainLib [pullOnePage 28672] readAll 4096 hpulls).mpr
  intro latest hlatest
  rcases hlatest with ⟨older, newer, hds, _, _⟩
  have hin : mappedPage latest 4096 ∈ [some ((28672 : Nat), (0 : UInt64))] := by
    rw [← hmapped, hds]
    exact List.mem_map_of_mem (List.mem_append_right older List.mem_cons_self)
  rw [List.mem_singleton.mp hin, hpages]
  constructor
  · intro k page hk hat
    rw [(firstAt_zero rfl).mp hat] at hk
    exact hk
  · intro _
    exact ⟨0, Nat.one_pos, rfl⟩

/-- A producer is pulled, moves its page to another frame, and is pulled again. -/
theorem not_fault_serves_latest_repulled :
    ¬ forall (pulls : List (PullCall UInt64 UInt64)) w,
      runPulls plainLib pulls (PullWorld.start [] []) = some w ->
        forall latest, LatestAt 4096 (fetchedDescriptors plainLib pulls) latest ->
          ServesPage ((handlePageFault w.publicHeaps 4096).run readAll.answer FaultWorld.start)
            (mappedPage latest 4096) := by
  intro h
  have hobserved : (runPulls plainLib [pullOnePage 28672, pullOnePage 32768]
      (PullWorld.start [] [])).map faultOnePage =
        some (.returned (.page 0), some (28672, 0)) := by
    decide +kernel
  have hmapped : (fetchedDescriptors plainLib [pullOnePage 28672, pullOnePage 32768]).map
      (fun d => (d.vma, mappedPage d 4096)) =
        [((onePage 0).vma, some (28672, 0)), ((onePage 0).vma, some (32768, 0))] := by
    decide +kernel
  rcases Option.map_eq_some_iff.mp hobserved with ⟨w, hpulls, hfault⟩
  rcases List.map_eq_cons_iff.mp hmapped with ⟨oldest, rest, hds, _, hrest⟩
  rcases List.map_eq_cons_iff.mp hrest with ⟨latest, newer, rfl, hpage, hnewer⟩
  have hnone : newer = [] := List.map_eq_nil_iff.mp hnewer
  have hvma : latest.vma = (onePage 0).vma := congrArg Prod.fst hpage
  have hlatest : LatestAt 4096
      (fetchedDescriptors plainLib [pullOnePage 28672, pullOnePage 32768]) latest := by
    refine ⟨[oldest], newer, hds, ⟨{ vmStart := 4096, vmEnd := 8192, flags := 0 }, ?_, ?_⟩, ?_⟩
    · rw [hvma]
      exact List.mem_singleton.mpr rfl
    · decide
    · intro d hd
      rw [hnone] at hd
      cases hd
  have hserves := h _ w hpulls latest hlatest
  rw [show mappedPage latest 4096 = some (32768, 0) from congrArg Prod.snd hpage] at hserves
  rcases hserves with ⟨newPage, hend, hfilled⟩
  have hfirst : (faultOnePage w).1 = .returned (.page newPage) := hend
  rw [hfault] at hfirst
  cases hfirst
  have hframe : (faultOnePage w).2 = some (32768, 0) := hfilled
  rw [hfault] at hframe
  cases hframe

end Kernel
end Dmerge
