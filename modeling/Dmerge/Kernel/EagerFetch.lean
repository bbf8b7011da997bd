import Dmerge.Kernel.PageFaults

/-!
# Eager and lazy pulls

A pull maps the regions of a heap.  Their pages come later, at page faults, or
right after the mapping, in batches.  A reader sees the pages that were inserted
and faults on the others.  The two kinds of pull are run in the same
surroundings, in which every posted read of a page succeeds, and every mapping of a
VMA that does not end before it starts.
-/

namespace Dmerge
namespace Kernel

open Foundation Memory Descriptors Producer Prog

variable {Regs Rdma Page : Type}

/-!
## The memory of the reader
-/

structure ReaderWorld (Regs Rdma Page : Type) where
  /-- The regions that are mapped, the latest last. -/
  regions : List VMADescriptor
  /-- Those with `VM_ALLOC` set. -/
  allocated : List VMADescriptor
  nextPage : PageId
  filled : PageId -> Option Page
  /-- What the inserted pages hold. -/
  inserted : Nat -> Option Page
  publicHeaps : List (HeapDataStruct Regs Rdma)

/-- What surrounds the reader; `remote` tells what the pages of other machines hold. -/
structure Reader (Regs Rdma Page : Type) where
  accessible : Rdma -> Bool
  remote : RemotePage Rdma -> Page
  other : Answers Regs Rdma

def mappable (m : VMADescriptor) : Bool := decide (m.getStart ≤ m.getEnd)

namespace Reader

/-- A region that is mapped replaces the pages that were there, and a page is inserted
where there is none. -/
def answer (c : Reader Regs Rdma Page) :
    (o : KernelOp Regs Rdma) -> ReaderWorld Regs Rdma Page ->
      o.Res × ReaderWorld Regs Rdma Page
  | .accessInfoNew machineInfo, w =>
      (if c.accessible machineInfo = true then some { machineInfo := machineInfo } else none, w)
  | .mapOneRegion m _, w =>
      if mappable m = true then
        (true,
          { w with
              regions := w.regions ++ [m]
              inserted := fun va => if m.Covers va then none else w.inserted va })
      else (false, w)
  | .setAlloc m, w => ((), { w with allocated := w.allocated ++ [m] })
  | .allocPage, w => (w.nextPage, { w with nextPage := w.nextPage + 1 })
  | .remoteRead page pa info, w =>
      (true,
        { w with
            filled := Function.update w.filled page (some (c.remote (pa, info.machineInfo))) })
  | .postPageRead page pa info _, w =>
      (true,
        { w with
            filled := Function.update w.filled page (some (c.remote (pa, info.machineInfo))) })
  | .blockOnPageReads, w => (.done (), w)
  | .vmInsertPage _ addr page, w =>
      ((w.inserted addr).isNone,
        { w with
            inserted := Function.update w.inserted addr
              ((w.inserted addr).or (w.filled page)) })
  | .pushPublicHeap heap, w => ((), { w with publicHeaps := w.publicHeaps ++ [heap] })
  | o, w => (c.other o, w)

/-- ioctl-1 -/
def pull (c : Reader Regs Rdma Page) (lib : KernelLib Regs Rdma) (hint machineId : UInt64)
    (eagerFetch : Bool) (w : ReaderWorld Regs Rdma Page) :
    Outcome Int × ReaderWorld Regs Rdma Page :=
  (syscallRmap lib hint machineId eagerFetch).run c.answer w

/-- The descriptor in the bytes that are read. -/
def descriptor (c : Reader Regs Rdma Page) (lib : KernelLib Regs Rdma) :
    Option (HeapDescriptor Regs Rdma) :=
  match c.other (.blockOnRead (10 * timeoutUsec)) with
  | .done descBuf =>
      match HeapDescriptor.deserialize lib descBuf with
      | .ok des => some des
      | .error _ => none
  | _ => none

def fault (c : Reader Regs Rdma Page) (w : ReaderWorld Regs Rdma Page) (va : Nat) :
    Option Page :=
  match (handlePageFault w.publicHeaps va).run c.answer w with
  | (.returned (.page newPage), w') => w'.filled newPage
  | _ => none

def read (c : Reader Regs Rdma Page) (w : ReaderWorld Regs Rdma Page) (va : Nat) :
    Option Page :=
  match w.inserted va with
  | some page => some page
  | none => c.fault w va

def pageAt (c : Reader Regs Rdma Page) (d : HeapDescriptor Regs Rdma) (va : Nat) :
    Option Page :=
  (mappedPage d va).map c.remote

def oldest (c : Reader Regs Rdma Page) (ds : List (HeapDescriptor Regs Rdma)) (va : Nat) :
    Option (RemotePage Rdma) :=
  (mappedPages va ds).find? fun page => c.accessible page.2

end Reader

def pageAddrs (m : VMADescriptor) : List Nat := stepAddrs m.getStart m.getEnd

def firstBatch (m : VMADescriptor) : List Nat := (pageAddrs m).take batchLen

def fetchedAddrs : Bool -> VMADescriptor -> List Nat
  | true => firstBatch
  | false => fun _ => []

def lastCovering (va : Nat) (vmas : List VMADescriptor) : Option VMADescriptor :=
  vmas.reverse.find? fun m => m.Covers va

def FetchedEagerly (va : Nat) (vmas : List VMADescriptor) : Prop :=
  exists m, lastCovering va vmas = some m ∧ va ∈ firstBatch m

/-- The page addresses of the regions of a descriptor. -/
def PageOf (d : HeapDescriptor Regs Rdma) (va : Nat) : Prop :=
  exists m, m ∈ d.vma ∧ va ∈ pageAddrs m

/-- Where a descriptor maps a page that is fetched eagerly, the oldest heap that maps
one there maps the same. -/
def PrefetchAgrees (c : Reader Regs Rdma Page) (older : List (HeapDescriptor Regs Rdma))
    (d : HeapDescriptor Regs Rdma) : Prop :=
  forall va page page', FetchedEagerly va d.vma -> c.pageAt d va = some page ->
    c.oldest older va = some page' -> c.remote page' = page

theorem covers_of_mem_pageAddrs {m : VMADescriptor} {va : Nat} (h : va ∈ pageAddrs m) :
    m.Covers va := by
  unfold pageAddrs stepAddrs at h
  rcases List.mem_map.mp h with ⟨i, hi, rfl⟩
  have hi : i < (m.getEnd - m.getStart + (pageSize - 1)) / pageSize := List.mem_range.mp hi
  have hpage : pageSize = 4096 := rfl
  rw [hpage] at hi ⊢
  constructor
  · omega
  · omega

theorem FetchedEagerly.pageOf {d : HeapDescriptor Regs Rdma} {va : Nat}
    (h : FetchedEagerly va d.vma) : PageOf d va := by
  rcases h with ⟨m, hlast, hin⟩
  exact ⟨m, List.mem_reverse.mp (List.mem_of_find?_eq_some hlast), List.mem_of_mem_take hin⟩

theorem PageOf.lastCovering {d : HeapDescriptor Regs Rdma} {va : Nat} (h : PageOf d va) :
    exists m, lastCovering va d.vma = some m := by
  rcases h with ⟨m, hm, hva⟩
  apply Option.isSome_iff_exists.mp
  apply List.find?_isSome.mpr
  exact ⟨m, List.mem_reverse.mpr hm, decide_eq_true (covers_of_mem_pageAddrs hva)⟩

theorem lastCovering_concat (va : Nat) (vmas : List VMADescriptor) (m : VMADescriptor) :
    lastCovering va (vmas ++ [m]) = if m.Covers va then some m else lastCovering va vmas := by
  unfold lastCovering
  rw [List.reverse_append, List.reverse_singleton, List.singleton_append, List.find?_cons]
  by_cases hcovers : m.Covers va
  · rw [if_pos hcovers, decide_eq_true hcovers]
  · rw [if_neg hcovers, decide_eq_false hcovers]

/-!
## A fault
-/

section Reading

variable (c : Reader Regs Rdma Page)

theorem run_findPage_reader (va : Nat) (heaps : List (HeapDataStruct Regs Rdma))
    (w : ReaderWorld Regs Rdma Page) :
    match c.oldest (heaps.map HeapDataStruct.descriptor) va with
    | some page => exists newPage w',
        (findPage va heaps).run c.answer w = (.returned (some newPage), w') ∧
          w'.filled newPage = some (c.remote page)
    | none => exists w', (findPage va heaps).run c.answer w = (.returned none, w') := by
  induction heaps generalizing w with
  | nil => exact ⟨w, rfl⟩
  | cons heap rest ih =>
      unfold findPage readRemotePage Reader.oldest
      cases hlookup : heap.descriptor.lookupPgTable va with
      | none =>
          rw [List.map_cons, mappedPages_cons_none _ hlookup]
          exact ih w
      | some pa =>
          rw [List.map_cons, mappedPages_cons_some _ hlookup, List.find?_cons]
          simp only [invoke_bind, run_call, Reader.answer]
          cases haccess : c.accessible heap.descriptor.machineInfo with
          | false => exact ih w
          | true => exact ⟨w.nextPage, _, rfl, Function.update_self _ _ _⟩

theorem fault_eq (w : ReaderWorld Regs Rdma Page) (va : Nat) :
    c.fault w va =
      (c.oldest (w.publicHeaps.map HeapDataStruct.descriptor) va).map c.remote := by
  have hfind := run_findPage_reader c va w.publicHeaps w
  unfold Reader.fault handlePageFault
  rw [run_bind]
  cases hold : c.oldest (w.publicHeaps.map HeapDataStruct.descriptor) va with
  | none =>
      rw [hold] at hfind
      rcases hfind with ⟨w', hrun⟩
      rw [hrun]
      rfl
  | some page =>
      rw [hold] at hfind
      rcases hfind with ⟨newPage, w', hrun, hfilled⟩
      rw [hrun]
      exact hfilled

/-!
## A batch
-/

structure BatchRead (d : HeapDescriptor Regs Rdma) (addrs : List Nat)
    (pages : List (Option PageId)) (w w' : ReaderWorld Regs Rdma Page) : Prop where
  pages : List.Forall₂ (fun va page => page.bind w'.filled = c.pageAt d va) addrs pages
  filled : forall page, page < w.nextPage -> w'.filled page = w.filled page
  nextPage : w.nextPage ≤ w'.nextPage
  regions : w'.regions = w.regions
  allocated : w'.allocated = w.allocated
  inserted : w'.inserted = w.inserted
  publicHeaps : w'.publicHeaps = w.publicHeaps

structure Prefetched (d : HeapDescriptor Regs Rdma) (addrs : List Nat)
    (w w' : ReaderWorld Regs Rdma Page) : Prop where
  regions : w'.regions = w.regions
  allocated : w'.allocated = w.allocated
  publicHeaps : w'.publicHeaps = w.publicHeaps
  inserted : forall va, w'.inserted va =
    (w.inserted va).or (if va ∈ addrs then c.pageAt d va else none)

def Reader.Connected (c : Reader Regs Rdma Page) : Prop := c.other .getDcQpKey = some ()

section Batches

variable {c} {d : HeapDescriptor Regs Rdma} {w w' : ReaderWorld Regs Rdma Page}

theorem BatchRead.skip {va : Nat} {addrs : List Nat} {pages : List (Option PageId)}
    (hnone : d.lookupPgTable va = none) (h : BatchRead c d addrs pages w w') :
    BatchRead c d (va :: addrs) (none :: pages) w w' := by
  refine ⟨List.Forall₂.cons ?_ h.pages, h.filled, h.nextPage, h.regions, h.allocated,
    h.inserted, h.publicHeaps⟩
  unfold Reader.pageAt mappedPage
  rw [hnone]
  rfl

theorem BatchRead.fetch {va pa : Nat} {addrs : List Nat} {pages : List (Option PageId)}
    (hsome : d.lookupPgTable va = some pa)
    (h : BatchRead c d addrs pages
      { w with
          nextPage := w.nextPage + 1
          filled := Function.update w.filled w.nextPage (some (c.remote (pa, d.machineInfo))) }
      w') :
    BatchRead c d (va :: addrs) (some w.nextPage :: pages) w w' := by
  have hkept : w'.filled w.nextPage = some (c.remote (pa, d.machineInfo)) :=
    (h.filled w.nextPage (Nat.lt_succ_self _)).trans (Function.update_self _ _ _)
  refine ⟨List.Forall₂.cons ?_ h.pages, ?_, Nat.le_of_succ_le h.nextPage, h.regions,
    h.allocated, h.inserted, h.publicHeaps⟩
  · unfold Reader.pageAt mappedPage
    rw [hsome]
    exact hkept
  · intro page hpage
    rw [h.filled page (Nat.lt_succ_of_lt hpage)]
    exact Function.update_of_ne (Nat.ne_of_lt hpage) _ _

theorem run_batchReadFrom (hqp : c.Connected) (d : HeapDescriptor Regs Rdma) (n i : Nat)
    (addrs : List Nat) (res : List (Option PageId)) (w : ReaderWorld Regs Rdma Page) :
    exists pages w',
      (batchReadFrom d { machineInfo := d.machineInfo } n i addrs res).run c.answer w =
        (.returned (res ++ pages), w') ∧ BatchRead c d addrs pages w w' := by
  induction addrs generalizing i res w with
  | nil =>
      refine ⟨[], w, ?_, List.Forall₂.nil, fun _ _ => rfl, Nat.le_refl _, rfl, rfl, rfl, rfl⟩
      rw [List.append_nil]
      rfl
  | cons va rest ih =>
      unfold batchReadFrom
      cases hlookup : d.lookupPgTable va with
      | none =>
          rcases ih (i + 1) (res ++ [none]) w with ⟨pages, w', hrun, hread⟩
          refine ⟨none :: pages, w', ?_, hread.skip hlookup⟩
          rw [hrun, List.append_assoc]
          rfl
      | some pa =>
          have hqp : c.other .getDcQpKey = some () := hqp
          simp only [invoke_bind, run_call, Reader.answer, hqp, expect_some, ret_bind]
          rcases ih (i + 1) (res ++ [some w.nextPage])
            { w with
                nextPage := w.nextPage + 1
                filled := Function.update w.filled w.nextPage
                  (some (c.remote (pa, d.machineInfo))) } with ⟨pages, w', hrun, hread⟩
          refine ⟨some w.nextPage :: pages, w', ?_, hread.fetch hlookup⟩
          rw [List.append_assoc] at hrun
          -- The last read of a batch is waited for, and completes.
          split
          · exact hrun
          · exact hrun

theorem Prefetched.refl (w : ReaderWorld Regs Rdma Page) : Prefetched c d [] w w where
  regions := rfl
  allocated := rfl
  publicHeaps := rfl
  inserted va := by
    rw [if_neg List.not_mem_nil, Option.or_none]

theorem Prefetched.trans {w'' : ReaderWorld Regs Rdma Page} {addrs addrs' : List Nat}
    (h : Prefetched c d addrs w w') (h' : Prefetched c d addrs' w' w'') :
    Prefetched c d (addrs ++ addrs') w w'' where
  regions := h'.regions.trans h.regions
  allocated := h'.allocated.trans h.allocated
  publicHeaps := h'.publicHeaps.trans h.publicHeaps
  inserted va := by
    rw [h'.inserted va, h.inserted va, Option.or_assoc]
    congr 1
    by_cases hin : va ∈ addrs
    · rw [if_pos hin, if_pos (List.mem_append_left addrs' hin)]
      by_cases hin' : va ∈ addrs'
      · rw [if_pos hin', Option.or_self]
      · rw [if_neg hin', Option.or_none]
    · rw [if_neg hin, Option.none_or]
      simp only [List.mem_append, hin, false_or]

theorem Prefetched.congr {addrs addrs' : List Nat} (h : Prefetched c d addrs w w')
    (hsame : forall va, va ∈ addrs <-> va ∈ addrs') : Prefetched c d addrs' w w' where
  regions := h.regions
  allocated := h.allocated
  publicHeaps := h.publicHeaps
  inserted va := by
    rw [h.inserted va]
    simp only [hsame va]

theorem run_insertPages (m : VMADescriptor) {addrs : List Nat} {pages : List (Option PageId)}
    (w : ReaderWorld Regs Rdma Page)
    (hpages : List.Forall₂ (fun va page => page.bind w.filled = c.pageAt d va) addrs pages) :
    exists w', (insertPages m (addrs.zip pages) : KProg Regs Rdma Unit).run c.answer w =
      (.returned (), w') ∧ Prefetched c d addrs w w' := by
  induction addrs generalizing pages w with
  | nil => exact ⟨w, rfl, Prefetched.refl w⟩
  | cons va rest ih =>
      cases hpages with
      | cons hpage hrest =>
          next page pages =>
          cases page with
          | none =>
              rcases ih w hrest with ⟨w', hrun, hrest'⟩
              refine ⟨w', hrun, ?_⟩
              refine ⟨hrest'.regions, hrest'.allocated, hrest'.publicHeaps, ?_⟩
              intro va'
              rw [hrest'.inserted va']
              congr 1
              by_cases hva : va' = va
              · subst hva
                rw [if_pos List.mem_cons_self, show c.pageAt d va' = none from hpage.symm]
                exact ite_self none
              · simp only [List.mem_cons, hva, false_or]
          | some newPage =>
              have hone : Prefetched c d [va] w
                  { w with
                      inserted := Function.update w.inserted va
                        ((w.inserted va).or (w.filled newPage)) } := by
                refine ⟨rfl, rfl, rfl, ?_⟩
                intro va'
                show Function.update w.inserted va _ va' = _
                by_cases hva : va' = va
                · subst hva
                  rw [Function.update_self, if_pos List.mem_cons_self]
                  exact congrArg _ hpage
                · rw [Function.update_of_ne hva, if_neg (by simpa using hva), Option.or_none]
              rcases ih
                { w with
                    inserted := Function.update w.inserted va
                      ((w.inserted va).or (w.filled newPage)) } hrest with ⟨w', hrun, hrest'⟩
              exact ⟨w', hrun, hone.trans hrest'⟩

variable (hqp : c.Connected)

include hqp

theorem run_fetchBatch (m : VMADescriptor) (addrBuf : List Nat)
    (w : ReaderWorld Regs Rdma Page) :
    exists w', (fetchBatch d m { machineInfo := d.machineInfo } addrBuf).run c.answer w =
      (.returned (), w') ∧ Prefetched c d addrBuf w w' := by
  rcases run_batchReadFrom hqp d addrBuf.length 0 addrBuf [] w with ⟨pages, w1, hread, hbatch⟩
  rcases run_insertPages m w1 hbatch.pages with ⟨w', hinsert, hpages⟩
  refine ⟨w', ?_, ?_⟩
  · unfold fetchBatch batchReadRemotePages
    rw [run_bind, hread]
    exact hinsert
  · refine ⟨hpages.regions.trans hbatch.regions, hpages.allocated.trans hbatch.allocated,
      hpages.publicHeaps.trans hbatch.publicHeaps, ?_⟩
    intro va
    rw [hpages.inserted va, hbatch.inserted]

theorem run_fetchFull (m : VMADescriptor) (addrBuf : List Nat)
    (w : ReaderWorld Regs Rdma Page) :
    exists addrs w', (fetchFull d m { machineInfo := d.machineInfo } addrBuf).run c.answer w =
      (.returned (), w') ∧ addrs ⊆ addrBuf ∧ Prefetched c d addrs w w' := by
  unfold fetchFull
  split
  · rcases run_fetchBatch hqp m addrBuf w with ⟨w', hrun, hfetched⟩
    exact ⟨addrBuf, w', hrun, List.Subset.refl _, hfetched⟩
  · exact ⟨[], w, rfl, List.nil_subset _, Prefetched.refl w⟩

theorem run_eagerFetchLoop (m : VMADescriptor) (addrs addrBuf : List Nat)
    (w : ReaderWorld Regs Rdma Page) :
    exists fetched w',
      (eagerFetchLoop d m { machineInfo := d.machineInfo } addrs addrBuf).run c.answer w =
        (.returned (addrBuf ++ addrs.take (batchLen - addrBuf.length)), w') ∧
      fetched ⊆ addrBuf ++ addrs.take (batchLen - addrBuf.length) ∧
      Prefetched c d fetched w w' := by
  induction addrs generalizing addrBuf w with
  | nil =>
      refine ⟨[], w, ?_, List.nil_subset _, Prefetched.refl w⟩
      rw [List.take_nil, List.append_nil]
      rfl
  | cons addr rest ih =>
      unfold eagerFetchLoop
      have hbuf := pushed_take addrBuf rest addr
      generalize hnext : (if addrBuf.length < batchLen then addrBuf ++ [addr]
        else addrBuf) = buf at hbuf
      rcases run_fetchFull hqp m buf w with ⟨now, w1, hfull, hnow, hpre⟩
      rcases ih buf w1 with ⟨later, w', hloop, hlater, hpost⟩
      rw [hbuf] at hloop hlater
      refine ⟨now ++ later, w', ?_, ?_, hpre.trans hpost⟩
      · simp only
        rw [run_bind, hfull]
        exact hloop
      · apply List.append_subset.mpr
        constructor
        · rw [← hbuf]
          exact List.subset_append_of_subset_left _ hnow
        · exact hlater

theorem run_fetchAll (m : VMADescriptor) (w : ReaderWorld Regs Rdma Page) :
    exists w', (fetchAll d m { machineInfo := d.machineInfo } (pageAddrs m)).run c.answer w =
      (.returned (), w') ∧ Prefetched c d (firstBatch m) w w' := by
  rcases run_eagerFetchLoop hqp m (pageAddrs m) [] w with ⟨fetched, w1, hloop, hsub, hpre⟩
  have hbuf : ([] : List Nat) ++ (pageAddrs m).take (batchLen - ([] : List Nat).length) =
      firstBatch m := rfl
  rw [hbuf] at hloop hsub
  unfold fetchAll
  rw [run_bind, hloop]
  by_cases hempty : (firstBatch m).isEmpty = true
  · refine ⟨w1, ?_, hpre.congr ?_⟩
    · simp only [hempty, not_true, if_false, pure_eq, run_ret]
    · intro va
      have hnil : firstBatch m = [] := List.isEmpty_iff.mp hempty
      rw [hnil] at hsub ⊢
      rw [List.eq_nil_of_subset_nil hsub]
  · have hfetch : exists w', (fetchBatch d m { machineInfo := d.machineInfo }
        (firstBatch m)).run c.answer w1 = (.returned (), w') ∧
          Prefetched c d (firstBatch m) w1 w' := run_fetchBatch hqp m (firstBatch m) w1
    rcases hfetch with ⟨w', hrun, hpost⟩
    refine ⟨w', ?_, (hpre.trans hpost).congr ?_⟩
    · simp only [hempty]
      exact hrun
    · intro va
      rw [List.mem_append]
      constructor
      · intro h
        cases h with
        | inl hin => exact hsub hin
        | inr hin => exact hin
      · exact Or.inr

theorem run_eagerFetchVma (lib : KernelLib Regs Rdma) {m : VMADescriptor}
    (hmap : mappable m = true) (w : ReaderWorld Regs Rdma Page) :
    exists w', (eagerFetchVma lib d m { machineInfo := d.machineInfo }).run c.answer w =
      (.returned (), w') ∧ Prefetched c d (firstBatch m) w w' := by
  have haddrs : fetchAddrs lib m = some (pageAddrs m) :=
    fetchAddrs_of_le lib (of_decide_eq_true hmap)
  rcases eagerFetchVma_eq lib d m { machineInfo := d.machineInfo } with
    ⟨hnone, _⟩ | ⟨addrs, hsome, hfetch⟩
  · rw [haddrs] at hnone
    cases hnone
  · rw [haddrs] at hsome
    cases hsome
    rw [hfetch]
    exact run_fetchAll hqp m w

end Batches

/-!
## Applying a descriptor
-/

structure Mapped (lib : KernelLib Regs Rdma) (d : HeapDescriptor Regs Rdma)
    (fetches : VMADescriptor -> List Nat) (vmas : List VMADescriptor)
    (w w' : ReaderWorld Regs Rdma Page) : Prop where
  regions : w'.regions = w.regions ++ vmas.filter mappable
  allocated : w'.allocated = w.allocated ++ (vmas.filter mappable).filter (containsAlloc lib)
  publicHeaps : w'.publicHeaps = w.publicHeaps
  inserted : w'.inserted = vmas.foldl (fun inserted m va =>
    if m.Covers va then (if va ∈ fetches m then c.pageAt d va else none) else inserted va)
    w.inserted

section Mapping

variable {c} {lib : KernelLib Regs Rdma} {d : HeapDescriptor Regs Rdma}
variable {fetches : VMADescriptor -> List Nat}

theorem Mapped.cons {m : VMADescriptor} {rest : List VMADescriptor}
    {p q : KProg Regs Rdma Unit} {w : ReaderWorld Regs Rdma Page}
    (hp : exists w1, p.run c.answer w = (.returned (), w1) ∧ Mapped c lib d fetches [m] w w1)
    (hq : forall w, exists w', q.run c.answer w = (.returned (), w') ∧
      Mapped c lib d fetches rest w w') :
    exists w', (p >>= fun _ => q).run c.answer w = (.returned (), w') ∧
      Mapped c lib d fetches (m :: rest) w w' := by
  rcases hp with ⟨w1, hrun, hfirst⟩
  rcases hq w1 with ⟨w', hrun', hrest⟩
  refine ⟨w', ?_, ?_⟩
  · rw [run_bind, hrun]
    exact hrun'
  · constructor
    · rw [hrest.regions, hfirst.regions, List.append_assoc, <- List.filter_append]
      rfl
    · rw [hrest.allocated, hfirst.allocated, List.append_assoc, <- List.filter_append,
        <- List.filter_append]
      rfl
    · rw [hrest.publicHeaps, hfirst.publicHeaps]
    · rw [hrest.inserted, hfirst.inserted]
      rfl

theorem mapped_nil (w : ReaderWorld Regs Rdma Page) : Mapped c lib d fetches [] w w where
  regions := (List.append_nil _).symm
  allocated := (List.append_nil _).symm
  publicHeaps := rfl
  inserted := rfl

theorem run_keepAlloc (m : VMADescriptor) (w : ReaderWorld Regs Rdma Page) :
    (keepAlloc lib m : KProg Regs Rdma Unit).run c.answer w =
      (.returned (), { w with allocated := w.allocated ++ [m].filter (containsAlloc lib) }) := by
  unfold keepAlloc
  by_cases halloc : containsAlloc lib m = true
  · rw [if_pos halloc, List.filter_cons_of_pos halloc]
    rfl
  · rw [if_neg halloc, List.filter_cons_of_neg halloc, List.filter_nil, List.append_nil]
    rfl

theorem mapped_unmappable {m : VMADescriptor} (hmap : mappable m = false)
    (w : ReaderWorld Regs Rdma Page) :
    Mapped c lib d fetches [m] w w := by
  have hnone : [m].filter mappable = [] := by
    rw [List.filter_cons_of_neg (by rw [hmap]; exact Bool.false_ne_true), List.filter_nil]
  constructor
  · rw [hnone, List.append_nil]
  · rw [hnone, List.filter_nil, List.append_nil]
  · rfl
  · funext va
    have hnot : ¬ m.Covers va := by
      rintro ⟨hstart, hend⟩
      have hlt := of_decide_eq_false hmap
      omega
    rw [List.foldl_cons, List.foldl_nil, if_neg hnot]

theorem filter_mappable {m : VMADescriptor} (hmap : mappable m = true) :
    [m].filter mappable = [m] := by
  rw [List.filter_cons_of_pos hmap, List.filter_nil]

theorem run_applyVmaLazy (m : VMADescriptor) (next : Option VMADescriptor)
    (w : ReaderWorld Regs Rdma Page) :
    exists w', (applyVmaLazy lib m next : KProg Regs Rdma Unit).run c.answer w =
      (.returned (), w') ∧ Mapped c lib d (fetchedAddrs false) [m] w w' := by
  unfold applyVmaLazy
  simp only [invoke_bind, run_call, Reader.answer]
  cases hmap : mappable m with
  | false => exact ⟨w, rfl, mapped_unmappable hmap w⟩
  | true =>
      simp only [if_true, run_keepAlloc]
      refine ⟨_, rfl, ?_, ?_, rfl, ?_⟩
      · rw [filter_mappable hmap]
      · rw [filter_mappable hmap]
      · funext va
        simp only [List.foldl_cons, List.foldl_nil, fetchedAddrs, List.not_mem_nil, if_false]

theorem run_applyLazy_reader (vmas : List VMADescriptor) (w : ReaderWorld Regs Rdma Page) :
    exists w', (applyLazy lib vmas : KProg Regs Rdma Unit).run c.answer w =
      (.returned (), w') ∧ Mapped c lib d (fetchedAddrs false) vmas w w' := by
  induction vmas generalizing w with
  | nil => exact ⟨w, rfl, mapped_nil w⟩
  | cons m rest ih => exact Mapped.cons (run_applyVmaLazy m rest.head? w) ih

theorem run_applyVmaEager (hqp : c.Connected) (m : VMADescriptor) (next : Option VMADescriptor)
    (w : ReaderWorld Regs Rdma Page) :
    exists w', (applyVmaEager lib d { machineInfo := d.machineInfo } m next).run c.answer w =
      (.returned (), w') ∧ Mapped c lib d (fetchedAddrs true) [m] w w' := by
  unfold applyVmaEager
  simp only [invoke_bind, run_call, Reader.answer]
  cases hmap : mappable m with
  | false => exact ⟨w, rfl, mapped_unmappable hmap w⟩
  | true =>
      simp only [if_true, run_call, Reader.answer, run_bind, run_keepAlloc]
      have hfetch : forall w, exists w', (eagerFetchVma lib d m
          { machineInfo := d.machineInfo }).run c.answer w = (.returned (), w') ∧
            Prefetched c d (firstBatch m) w w' := run_eagerFetchVma hqp lib hmap
      rcases hfetch
        { w with
            regions := w.regions ++ [m]
            inserted := fun va => if m.Covers va then none else w.inserted va
            allocated := w.allocated ++ [m].filter (containsAlloc lib) } with ⟨w', hrun, hpre⟩
      refine ⟨w', hrun, ?_, ?_, hpre.publicHeaps, ?_⟩
      · rw [filter_mappable hmap]
        exact hpre.regions
      · rw [filter_mappable hmap]
        exact hpre.allocated
      · funext va
        rw [hpre.inserted va, List.foldl_cons, List.foldl_nil, fetchedAddrs]
        show (if m.Covers va then none else w.inserted va).or _ = _
        by_cases hcovers : m.Covers va
        · rw [if_pos hcovers, if_pos hcovers, Option.none_or]
        · have hnot : va ∉ firstBatch m := by
            intro hin
            exact hcovers (covers_of_mem_pageAddrs (List.mem_of_mem_take hin))
          rw [if_neg hcovers, if_neg hcovers, if_neg hnot, Option.or_none]

theorem run_applyEager_reader (hqp : c.Connected) (vmas : List VMADescriptor)
    (w : ReaderWorld Regs Rdma Page) :
    exists w', (applyEager lib d { machineInfo := d.machineInfo } vmas).run c.answer w =
      (.returned (), w') ∧ Mapped c lib d (fetchedAddrs true) vmas w w' := by
  induction vmas generalizing w with
  | nil => exact ⟨w, rfl, mapped_nil w⟩
  | cons m rest ih => exact Mapped.cons (run_applyVmaEager hqp m rest.head? w) ih

theorem run_applyTo_reader (lib : KernelLib Regs Rdma) (d : HeapDescriptor Regs Rdma)
    (hqp : c.Connected) (haccess : c.accessible d.machineInfo = true) (eagerFetch : Bool)
    (w : ReaderWorld Regs Rdma Page) :
    exists w', (applyTo lib d eagerFetch).run c.answer w = (.returned (), w') ∧
      Mapped c lib d (fetchedAddrs eagerFetch) d.vma w w' := by
  cases eagerFetch with
  | false => exact run_applyLazy_reader d.vma w
  | true =>
      rcases run_applyEager_reader hqp d.vma w with ⟨w', hrun, hmapped⟩
      refine ⟨w', ?_, hmapped⟩
      unfold applyTo
      simp only [if_true, invoke_bind, run_call, Reader.answer, haccess, expect_some, ret_bind]
      exact hrun

theorem inserted_mapped (c : Reader Regs Rdma Page) (d : HeapDescriptor Regs Rdma)
    (fetches : VMADescriptor -> List Nat) (vmas : List VMADescriptor)
    (inserted : Nat -> Option Page) (va : Nat) :
    vmas.foldl (fun inserted m va =>
      if m.Covers va then (if va ∈ fetches m then c.pageAt d va else none) else inserted va)
      inserted va =
      match lastCovering va vmas with
      | some m => if va ∈ fetches m then c.pageAt d va else none
      | none => inserted va := by
  induction vmas using List.reverseRecOn with
  | nil => rfl
  | append_singleton vmas m ih =>
      rw [List.foldl_append, lastCovering_concat, List.foldl_cons, List.foldl_nil]
      by_cases hcovers : m.Covers va
      · rw [if_pos hcovers, if_pos hcovers]
      · rw [if_neg hcovers, if_neg hcovers]
        exact ih

end Mapping

/-!
## A whole pull
-/

structure Pulled (lib : KernelLib Regs Rdma) (d : HeapDescriptor Regs Rdma)
    (fetches : VMADescriptor -> List Nat) (w w' : ReaderWorld Regs Rdma Page) : Prop where
  regions : w'.regions = w.regions ++ d.vma.filter mappable
  allocated : w'.allocated = w.allocated ++ (d.vma.filter mappable).filter (containsAlloc lib)
  heaps : w'.publicHeaps.map HeapDataStruct.descriptor =
    w.publicHeaps.map HeapDataStruct.descriptor ++ [d]
  inserted : forall va m, lastCovering va d.vma = some m ->
    w'.inserted va = if va ∈ fetches m then c.pageAt d va else none

def PullAlike (lib : KernelLib Regs Rdma) (w : ReaderWorld Regs Rdma Page)
    (f : Bool -> Outcome Int × ReaderWorld Regs Rdma Page) : Prop :=
  (f true = f false ∧ (f false).1 ≠ .returned 0) ∨
    exists d, c.descriptor lib = some d ∧ c.accessible d.machineInfo = true ∧
      forall eagerFetch, (f eagerFetch).1 = .returned 0 ∧
        Pulled c lib d (fetchedAddrs eagerFetch) w (f eagerFetch).2

section Pulling

variable {c} {lib : KernelLib Regs Rdma} {d : HeapDescriptor Regs Rdma}
variable {fetches : VMADescriptor -> List Nat} {w : ReaderWorld Regs Rdma Page}

theorem pullAlike_fail {r : Outcome Int × ReaderWorld Regs Rdma Page}
    (hfails : r.1 ≠ .returned 0) : PullAlike c lib w fun _ => r :=
  Or.inl ⟨rfl, hfails⟩

theorem Mapped.pulled {w1 : ReaderWorld Regs Rdma Page} {heap : HeapDataStruct Regs Rdma}
    (h : Mapped c lib d fetches d.vma w w1) (hheap : heap.descriptor = d) :
    Pulled c lib d fetches w { w1 with publicHeaps := w1.publicHeaps ++ [heap] } where
  regions := h.regions
  allocated := h.allocated
  heaps := by
    show (w1.publicHeaps ++ [heap]).map HeapDataStruct.descriptor = _
    rw [h.publicHeaps, List.map_append, List.map_singleton, hheap]
  inserted va m hlast := by
    show w1.inserted va = _
    rw [h.inserted, inserted_mapped, hlast]

theorem run_pullFetched_reader (hqp : c.Connected) {descBuf : Bytes}
    (hread : c.other (.blockOnRead (10 * timeoutUsec)) = .done descBuf) (hint : UInt64)
    (cpu : CpuId) (w : ReaderWorld Regs Rdma Page) :
    PullAlike c lib w fun eagerFetch =>
      (pullFetched lib hint cpu eagerFetch descBuf).run c.answer w := by
  unfold pullFetched
  cases hdes : HeapDescriptor.deserialize lib descBuf with
  | error stop =>
      cases stop with
      | abort => exact pullAlike_fail fun h => (by cases h)
      | reject => exact pullAlike_fail fun h => (by cases h)
  | ok des =>
      simp only [invoke_bind, run_call, Reader.answer]
      cases haccess : c.accessible des.machineInfo with
      | false => exact pullAlike_fail fun h => (by cases h)
      | true =>
          have hdescriptor : c.descriptor lib = some des := by
            unfold Reader.descriptor
            simp only [hread, hdes]
          refine Or.inr ⟨des, hdescriptor, haccess, fun eagerFetch => ?_⟩
          rcases run_applyTo_reader lib des hqp haccess eagerFetch w with ⟨w', hrun, hmapped⟩
          simp only [if_true, run_bind, hrun]
          exact ⟨rfl, hmapped.pulled rfl⟩

theorem run_pullReplied_reader (hint : UInt64) (cpu : CpuId) (session : SessionId)
    (d : HeapDescriptorQueryReply) (w : ReaderWorld Regs Rdma Page) :
    PullAlike c lib w fun eagerFetch =>
      (pullReplied lib hint cpu session eagerFetch d).run c.answer w := by
  unfold pullReplied
  by_cases hready : ¬ d.ready
  · simp only [if_pos hready]
    exact pullAlike_fail fun h => (by cases h)
  · simp only [if_neg hready, remoteDescriptorFetch, invoke_bind, call_bind, run_call,
      Reader.answer]
    cases c.other (.getSs session) with
    | none => exact pullAlike_fail fun h => (by cases h)
    | some _ =>
        simp only [expect_some, ret_bind, call_bind, run_call, Reader.answer]
        cases hqp : c.other .getDcQpKey with
        | none => exact pullAlike_fail fun h => (by cases h)
        | some _ =>
            simp only [expect_some, ret_bind, call_bind, run_call, Reader.answer]
            cases c.other (.postRead session d.pa d.sz) with
            | false => exact pullAlike_fail fun h => (by cases h)
            | true =>
                simp only [call_bind, run_call, Reader.answer]
                cases hread : c.other (.blockOnRead (10 * timeoutUsec)) with
                | done descBuf => exact run_pullFetched_reader hqp hread hint cpu w
                | elapsed => exact pullAlike_fail fun h => (by cases h)
                | failed => exact pullAlike_fail fun h => (by cases h)

theorem run_pull (lib : KernelLib Regs Rdma) (hint machineId : UInt64)
    (w : ReaderWorld Regs Rdma Page) :
    PullAlike c lib w fun eagerFetch => c.pull lib hint machineId eagerFetch w := by
  unfold Reader.pull syscallRmap
  simp only [invoke_bind, run_call, Reader.answer]
  generalize c.other .getCallingCpuId = cpu
  rcases lockCpu_eq lib cpu with ⟨_, hlock⟩ | ⟨_, hlock⟩
  case inr =>
    simp only [hlock]
    exact pullAlike_fail fun h => (by cases h)
  simp only [hlock, invoke_bind, run_call, Reader.answer]
  cases c.other (.getGlobalCaller cpu) with
  | none => exact pullAlike_fail fun h => (by cases h)
  | some _ =>
      simp only [expect_some, ret_bind, run_call, Reader.answer]
      generalize c.other .getMacId = machine
      cases c.other (.syncCall { machine := machineId, cpu := cpu }
        { machine := machine, cpu := cpu } .query (lib.usize.encode hint)) with
      | false => exact pullAlike_fail fun h => (by cases h)
      | true =>
          simp only [run_call, Reader.answer]
          cases c.other (.blockOnCaller (10 * timeoutUsec)) with
          | none => exact pullAlike_fail fun h => (by cases h)
          | some reply =>
              simp only [run_call, Reader.answer]
              cases c.other .registerRecvBuf with
              | none => exact pullAlike_fail fun h => (by cases h)
              | some _ =>
                  simp only [expect_some, ret_bind]
                  cases lib.queryReply.decode reply with
                  | none => exact pullAlike_fail fun h => (by cases h)
                  | some d => exact run_pullReplied_reader hint cpu _ d w

theorem Pulled.fault {w' : ReaderWorld Regs Rdma Page} (h : Pulled c lib d fetches w w')
    (haccess : c.accessible d.machineInfo = true) (va : Nat) :
    c.fault w' va = ((c.oldest (w.publicHeaps.map HeapDataStruct.descriptor) va).map
      c.remote).or (c.pageAt d va) := by
  rw [fault_eq, h.heaps]
  unfold Reader.oldest mappedPages Reader.pageAt
  rw [List.filterMap_append, List.find?_append, Option.map_or]
  congr 1
  cases hmapped : mappedPage d va with
  | none =>
      simp only [List.filterMap_cons, List.filterMap_nil, hmapped, List.find?_nil]
  | some page =>
      have hinfo : page.2 = d.machineInfo := by
        rcases Option.map_eq_some_iff.mp hmapped with ⟨pa, _, rfl⟩
        rfl
      simp only [List.filterMap_cons, List.filterMap_nil, hmapped, List.find?_cons, hinfo,
        haccess]

theorem Pulled.read {w' : ReaderWorld Regs Rdma Page} (h : Pulled c lib d fetches w w')
    (haccess : c.accessible d.machineInfo = true) {va : Nat} {m : VMADescriptor}
    (hlast : lastCovering va d.vma = some m) :
    c.read w' va = (if va ∈ fetches m then c.pageAt d va else none).or
      (((c.oldest (w.publicHeaps.map HeapDataStruct.descriptor) va).map c.remote).or
        (c.pageAt d va)) := by
  unfold Reader.read
  rw [h.inserted va m hlast, h.fault haccess va]
  cases (if va ∈ fetches m then c.pageAt d va else none) with
  | none => rfl
  | some page => rfl

theorem read_eq_iff {we wl : ReaderWorld Regs Rdma Page}
    (haccess : c.accessible d.machineInfo = true)
    (heager : Pulled c lib d (fetchedAddrs true) w we)
    (hlazy : Pulled c lib d (fetchedAddrs false) w wl) :
    (forall va, PageOf d va -> c.read we va = c.read wl va) <->
      PrefetchAgrees c (w.publicHeaps.map HeapDataStruct.descriptor) d := by
  have hwl : forall va m, lastCovering va d.vma = some m -> c.read wl va =
      ((c.oldest (w.publicHeaps.map HeapDataStruct.descriptor) va).map c.remote).or
        (c.pageAt d va) := by
    intro va m hlast
    rw [hlazy.read haccess hlast, fetchedAddrs, if_neg List.not_mem_nil, Option.none_or]
  constructor
  · intro h va page page' hfetched hpage hpage'
    have hread := h va hfetched.pageOf
    rcases hfetched with ⟨m, hlast, hin⟩
    rw [heager.read haccess hlast, hwl va m hlast, fetchedAddrs, if_pos hin, hpage, hpage']
      at hread
    exact (Option.some.inj hread).symm
  · intro h va hva
    rcases hva.lastCovering with ⟨m, hlast⟩
    rw [heager.read haccess hlast, hwl va m hlast, fetchedAddrs]
    by_cases hin : va ∈ firstBatch m
    · rw [if_pos hin]
      cases hpage : c.pageAt d va with
      | none => rfl
      | some page =>
          cases hold : c.oldest (w.publicHeaps.map HeapDataStruct.descriptor) va with
          | none => rfl
          | some page' =>
              have hsame : c.remote page' = page := h va page page' ⟨m, hlast, hin⟩ hpage hold
              rw [Option.map_some, hsame]
              rfl
    · rw [if_neg hin, Option.none_or]

end Pulling
end Reading

/-- The two kinds of pull return the same, map the same regions with the same `VM_ALLOC`,
and, when they return 0, let the reader read the same at every page address of these
regions exactly when the oldest heap agrees wherever a page was fetched eagerly. -/
theorem eager_lazy_iff (lib : KernelLib Regs Rdma) (hint machineId : UInt64)
    (c : Reader Regs Rdma Page) (w : ReaderWorld Regs Rdma Page) :
    (c.pull lib hint machineId true w).1 = (c.pull lib hint machineId false w).1 ∧
      (c.pull lib hint machineId true w).2.regions =
        (c.pull lib hint machineId false w).2.regions ∧
      (c.pull lib hint machineId true w).2.allocated =
        (c.pull lib hint machineId false w).2.allocated ∧
      ((c.pull lib hint machineId false w).1 = .returned 0 ->
        exists d, c.descriptor lib = some d ∧
          ((forall va, PageOf d va ->
            c.read (c.pull lib hint machineId true w).2 va =
              c.read (c.pull lib hint machineId false w).2 va) <->
            PrefetchAgrees c (w.publicHeaps.map HeapDataStruct.descriptor) d)) := by
  have halike : PullAlike c lib w fun eagerFetch => c.pull lib hint machineId eagerFetch w :=
    run_pull lib hint machineId w
  cases halike with
  | inl hfail =>
      rcases hfail with ⟨hsame, hnot⟩
      have hsame : c.pull lib hint machineId true w = c.pull lib hint machineId false w := hsame
      rw [hsame]
      exact ⟨rfl, rfl, rfl, fun h => absurd h hnot⟩
  | inr hpull =>
      rcases hpull with ⟨d, hdescriptor, haccess, hboth⟩
      rcases hboth true with ⟨heager, hpe⟩
      rcases hboth false with ⟨hlazy, hpl⟩
      refine ⟨heager.trans hlazy.symm, hpe.regions.trans hpl.regions.symm,
        hpe.allocated.trans hpl.allocated.symm, fun _ => ⟨d, hdescriptor, ?_⟩⟩
      exact read_eq_iff haccess hpe hpl

/-- Surroundings in which the pull gets a heap of one page; a frame holds its own
address. -/
def readerOnePage (frame : UInt64) : Reader UInt64 UInt64 Nat where
  accessible _ := true
  remote page := page.1
  other := obliging
    (some (plainLib.queryReply.encode
      { pa := 0, sz := UInt64.ofNat ((onePage frame).encode plainLib).length, ready := true }))
    ((onePage frame).encode plainLib)

def emptyReader : ReaderWorld UInt64 UInt64 Nat where
  regions := []
  allocated := []
  nextPage := 0
  filled _ := none
  inserted _ := none
  publicHeaps := []

def pulledOnce (frame : UInt64) : ReaderWorld UInt64 UInt64 Nat :=
  ((readerOnePage frame).pull plainLib 1 0 false emptyReader).2

/-- A producer is pulled, moves its page to another frame, and is pulled again. -/
theorem not_eager_lazy_repulled :
    ¬ forall (c : Reader UInt64 UInt64 Nat) w d va, c.descriptor plainLib = some d ->
      PageOf d va -> c.read (c.pull plainLib 1 0 true w).2 va =
        c.read (c.pull plainLib 1 0 false w).2 va := by
  intro h
  have hvma : ((readerOnePage 32768).descriptor plainLib).map (fun d => d.vma) =
      some (onePage 0).vma := by
    decide +kernel
  have heager : (readerOnePage 32768).read ((readerOnePage 32768).pull plainLib 1 0 true
      (pulledOnce 28672)).2 4096 = some 32768 := by
    decide +kernel
  have hlazy : (readerOnePage 32768).read ((readerOnePage 32768).pull plainLib 1 0 false
      (pulledOnce 28672)).2 4096 = some 28672 := by
    decide +kernel
  rcases Option.map_eq_some_iff.mp hvma with ⟨d, hd, hdvma⟩
  have hpage : PageOf d 4096 := by
    refine ⟨{ vmStart := 4096, vmEnd := 8192, flags := 0 }, ?_, ?_⟩
    · rw [hdvma]
      exact List.mem_singleton.mpr rfl
    · decide
  have hsame := h (readerOnePage 32768) (pulledOnce 28672) d 4096 hd hpage
  rw [heager, hlazy] at hsame
  cases hsame

end Kernel
end Dmerge
