import Mathlib.Data.List.ReduceOption
import Mathlib.Data.Multiset.AddSub
import Dmerge.Kernel.Aborts
import Dmerge.Kernel.BatchReads
import Dmerge.Kernel.PageFaults
import Dmerge.Kernel.Snapshot

/-!
# The local pages of the module

A fetch allocates a local page for each remote page that it reads.  The page is
freed when the read fails, inserted into a region by an eager pull, or returned to
the kernel by a fault.  An insertion that the kernel refuses is not looked at, and its
page is lost.  The ledger holds the pages that the module owns at a moment; a page may
be read into, freed and handed over only while it is there.
-/

namespace Dmerge
namespace Kernel

open Foundation Memory Descriptors Producer Prog

variable {Regs Rdma : Type}

/-!
## The ledger
-/

/-- The pages that the module holds, and those that it gave up without handing them to
anyone. -/
structure Ledger where
  held : Multiset PageId
  lost : Multiset PageId
  deriving DecidableEq

namespace PageLedger

def empty : Ledger := { held := 0, lost := 0 }

def used : KernelOp Regs Rdma -> Option PageId
  | .freePage page => some page
  | .remoteRead page _ _ => some page
  | .postPageRead page _ _ _ => some page
  | .vmInsertPage _ _ page => some page
  | _ => none

def may (l : Ledger) (o : KernelOp Regs Rdma) : Prop :=
  forall page, used o = some page -> page ∈ l.held

/-- A page is not held any more when it is freed or inserted, and when its insertion is
refused. -/
def after (l : Ledger) : (o : KernelOp Regs Rdma) -> o.Res -> Ledger
  | .allocPage, page => { l with held := page ::ₘ l.held }
  | .freePage page, _ => { l with held := l.held.erase page }
  | .vmInsertPage _ _ page, true => { l with held := l.held.erase page }
  | .vmInsertPage _ _ page, false => { held := l.held.erase page, lost := page ::ₘ l.lost }
  | _, _ => l

end PageLedger

abbrev pageLedger (Regs Rdma : Type) : Monitor (kernelSig Regs Rdma) where
  State := Ledger
  may := PageLedger.may
  after := PageLedger.after

/-- A program that uses pages of the ledger only, and whose return leaves the
ledger as told. -/
def Accounts {alpha : Type} (p : KProg Regs Rdma alpha) (l : Ledger)
    (post : alpha -> Ledger -> Prop) : Prop :=
  p.Conforms (pageLedger Regs Rdma).protocol
    (fun l' out =>
      match out with
      | .returned a => post a l'
      | .panicked _ => True) l

def Balanced {alpha : Type} (p : KProg Regs Rdma alpha) : Prop :=
  forall l, Accounts p l fun _ l' => l'.held = l.held

def KernelOp.Pageless : KernelOp Regs Rdma -> Prop
  | .allocPage | .freePage _ | .remoteRead _ _ _ | .postPageRead _ _ _ _
  | .vmInsertPage _ _ _ => False
  | _ => True

def fetchedPages (pages : List (Option PageId)) : Multiset PageId := pages.reduceOption

theorem fetchedPages_append (pages pages' : List (Option PageId)) :
    fetchedPages (pages ++ pages') = fetchedPages pages + fetchedPages pages' := by
  unfold fetchedPages
  rw [List.reduceOption_append, ← Multiset.coe_add]

section Accounting

variable {alpha beta : Type} {l : Ledger}
variable {post : alpha -> Ledger -> Prop} {post' : beta -> Ledger -> Prop}

theorem Accounts.bind {p : KProg Regs Rdma alpha} {f : alpha -> KProg Regs Rdma beta}
    (hp : Accounts p l post) (hf : forall a l', post a l' -> Accounts (f a) l' post') :
    Accounts (p >>= f) l post' := by
  apply Conforms.bind hp
  · intro l' a h
    exact hf a l' h
  · intro _ _ _
    exact True.intro

theorem Accounts.weaken {p : KProg Regs Rdma alpha} {wider : alpha -> Ledger -> Prop}
    (hp : Accounts p l post) (himp : forall a l', post a l' -> wider a l') :
    Accounts p l wider := by
  apply Conforms.weaken hp
  intro l' out h
  cases out with
  | returned a => exact himp a l' h
  | panicked msg => exact True.intro

theorem accounts_expect {msg : String} {x : Option alpha} {f : alpha -> KProg Regs Rdma beta}
    (hf : forall a, Accounts (f a) l post') :
    Accounts (Prog.expect msg x >>= f : KProg Regs Rdma beta) l post' := by
  cases x with
  | none => exact True.intro
  | some a => exact hf a

theorem Balanced.bind {p : KProg Regs Rdma alpha} {f : alpha -> KProg Regs Rdma beta}
    (hp : Balanced p) (hf : forall a, Balanced (f a)) : Balanced (p >>= f) := by
  intro l
  apply (hp l).bind
  intro a l' hheld
  apply (hf a l').weaken
  intro b l'' hheld'
  exact hheld'.trans hheld

theorem balanced_ret (a : alpha) : Balanced (.ret a : KProg Regs Rdma alpha) :=
  fun _ => rfl

theorem balanced_panic (msg : String) : Balanced (.panic msg : KProg Regs Rdma alpha) :=
  fun _ => True.intro

theorem balanced_expect (msg : String) (x : Option alpha) :
    Balanced (Prog.expect msg x : KProg Regs Rdma alpha) := by
  cases x with
  | none => exact balanced_panic msg
  | some a => exact balanced_ret a

theorem accounts_call {o : KernelOp Regs Rdma} {k : o.Res -> KProg Regs Rdma alpha}
    (hmay : PageLedger.may l o) (hk : forall r, Accounts (k r) (PageLedger.after l o r) post) :
    Accounts (.call o k) l post := by
  refine ⟨hmay, ?_⟩
  intro r l' hnext
  have hnext : l' = PageLedger.after l o r := hnext
  rw [hnext]
  exact hk r

theorem KernelOp.Pageless.may {o : KernelOp Regs Rdma} (h : o.Pageless) :
    PageLedger.may l o := by
  intro page hused
  cases o <;> first | exact h.elim | cases hused

theorem KernelOp.Pageless.after {o : KernelOp Regs Rdma} (h : o.Pageless) (r : o.Res) :
    PageLedger.after l o r = l := by
  cases o <;> first | exact h.elim | rfl

theorem accounts_pageless {o : KernelOp Regs Rdma} {k : o.Res -> KProg Regs Rdma alpha}
    (ho : o.Pageless) (hk : forall r, Accounts (k r) l post) :
    Accounts (.call o k) l post := by
  apply accounts_call ho.may
  intro r
  rw [ho.after r]
  exact hk r

theorem balanced_pageless {o : KernelOp Regs Rdma} {k : o.Res -> KProg Regs Rdma alpha}
    (ho : o.Pageless) (hk : forall r, Balanced (k r)) : Balanced (.call o k) :=
  fun l => accounts_pageless ho fun r => hk r l

theorem may_of_mem {o : KernelOp Regs Rdma} {page : PageId} (hused : PageLedger.used o = some page)
    (hmem : page ∈ l.held) : PageLedger.may l o := by
  intro page' hpage'
  rw [hused] at hpage'
  cases hpage'
  exact hmem

def Ledger.hold (l : Ledger) (page : PageId) : Ledger := { l with held := page ::ₘ l.held }

theorem Ledger.mem_hold (l : Ledger) (page : PageId) : page ∈ (l.hold page).held :=
  Multiset.mem_cons_self page l.held

theorem accounts_freePage {page : PageId} {k : Unit -> KProg Regs Rdma alpha}
    (hk : Accounts (k ()) l post) :
    Accounts (.call (.freePage page) k) (l.hold page) post := by
  apply accounts_call (may_of_mem rfl (l.mem_hold page))
  intro r
  have hafter : PageLedger.after (l.hold page) (.freePage page : KernelOp Regs Rdma) r = l :=
    congrArg (Ledger.mk · l.lost) (Multiset.erase_cons_head page l.held)
  rw [hafter]
  exact hk

end Accounting

/-!
## Faults
-/

def Ledger.holdAll (l : Ledger) (pages : Multiset PageId) : Ledger :=
  { l with held := pages + l.held }

theorem Ledger.holdAll_zero (l : Ledger) : l.holdAll 0 = l :=
  congrArg (Ledger.mk · l.lost) (zero_add l.held)

theorem Ledger.holdAll_singleton (l : Ledger) (page : PageId) :
    l.holdAll (fetchedPages [some page]) = l.hold page :=
  congrArg (Ledger.mk · l.lost) (Multiset.singleton_add page l.held)

def Found (l : Ledger) (found : Option PageId) (l' : Ledger) : Prop :=
  l' = l.holdAll (fetchedPages [found])

theorem found_none (l : Ledger) : Found l none l := l.holdAll_zero.symm

theorem readRemotePage_accounts (d : HeapDescriptor Regs Rdma) (remoteVa : Nat)
    (info : AccessInfo Rdma) (l : Ledger) :
    Accounts (readRemotePage d remoteVa info) l (Found l) := by
  unfold readRemotePage
  cases d.lookupPgTable remoteVa with
  | none => exact found_none l
  | some remotePa =>
      simp only [invoke_bind]
      apply accounts_call
      · intro page hused
        cases hused
      · intro newPage
        apply accounts_call (may_of_mem rfl (l.mem_hold newPage))
        intro read
        cases read with
        | true => exact (l.holdAll_singleton newPage).symm
        | false =>
            apply accounts_freePage
            exact found_none l

theorem findPage_accounts (faultAddr : Nat) (heaps : List (HeapDataStruct Regs Rdma))
    (l : Ledger) : Accounts (findPage faultAddr heaps) l (Found l) := by
  induction heaps with
  | nil => exact found_none l
  | cons heap rest ih =>
      unfold findPage
      cases heap.descriptor.lookupPgTable faultAddr with
      | none => exact ih
      | some _ =>
          simp only [invoke_bind]
          refine accounts_pageless True.intro fun info => ?_
          cases info with
          | none => exact ih
          | some info =>
              apply (readRemotePage_accounts heap.descriptor faultAddr info l).bind
              intro found l' hfound
              cases found with
              | some newPage => exact hfound
              | none =>
                  have hsame : l' = l := hfound.trans l.holdAll_zero
                  rw [hsame]
                  exact ih

/-- The page that a fault hands to the kernel. -/
def FaultResult.pages : FaultResult -> Multiset PageId
  | .page newPage => {newPage}
  | .sigsegv => 0

theorem handlePageFault_accounts (heaps : List (HeapDataStruct Regs Rdma)) (faultAddr : Nat) :
    Accounts (handlePageFault heaps faultAddr) PageLedger.empty
      fun result l => l = { held := result.pages, lost := 0 } := by
  unfold handlePageFault
  apply (findPage_accounts faultAddr heaps PageLedger.empty).bind
  intro found l hfound
  cases found with
  | none => exact hfound
  | some newPage => exact hfound

/-- Whatever the other machines and the network do, a fault uses only pages that it
has allocated and not freed yet, and of these it owns, when it returns, exactly the
page that it installs. -/
theorem fault_pages_accounted (heaps : List (HeapDataStruct Regs Rdma)) (faultAddr : Nat)
    (trace : List (Exchange (kernelSig Regs Rdma))) (result : FaultResult)
    (hexec : Executes (handlePageFault heaps faultAddr) trace (.returned result)) :
    (pageLedger Regs Rdma).Allows PageLedger.empty trace ∧
      (pageLedger Regs Rdma).follow PageLedger.empty trace =
        ({ held := result.pages, lost := 0 } : Ledger) :=
  Conforms.executes (handlePageFault_accounts heaps faultAddr) hexec

def faultTrace : List (Exchange (kernelSig UInt64 UInt64)) :=
  (handlePageFault [smallHeap] 4096).record (fun o s => (obliging none [] o, s)) ()

theorem fault_pages_accounted_one :
    (pageLedger UInt64 UInt64).Allows PageLedger.empty faultTrace ∧
      (pageLedger UInt64 UInt64).follow PageLedger.empty faultTrace =
        ({ held := {0}, lost := 0 } : Ledger) := by
  apply fault_pages_accounted [smallHeap] 4096 faultTrace (.page 0)
  exact executes_record (S := kernelSig UInt64 UInt64) (fun o s => (obliging none [] o, s)) _ ()

/-!
## Batches
-/

section Batches

variable (d : HeapDescriptor Regs Rdma)

def BatchLeaves (l : Ledger) (res : List (Option PageId)) (addrs : List Nat)
    (pages : List (Option PageId)) (l' : Ledger) : Prop :=
  exists more, pages = res ++ more ∧ more.length = addrs.length ∧
    l' = l.holdAll (fetchedPages more)

theorem BatchLeaves.step {l l' : Ledger} {res pages : List (Option PageId)}
    {addrs : List Nat} {addr : Nat} {page : Option PageId}
    (h : BatchLeaves (l.holdAll (fetchedPages [page])) (res ++ [page]) addrs pages l') :
    BatchLeaves l res (addr :: addrs) pages l' := by
  rcases h with ⟨more, hpages, hlen, hheld⟩
  refine ⟨page :: more, by rw [hpages, List.append_assoc]; rfl, by simp [hlen], ?_⟩
  have hsplit : fetchedPages (page :: more) = fetchedPages [page] + fetchedPages more :=
    fetchedPages_append [page] more
  rw [hheld, hsplit]
  apply congrArg (Ledger.mk · l.lost)
  rw [add_assoc]
  exact add_left_comm (fetchedPages more) (fetchedPages [page]) l.held

theorem batchReadFrom_accounts (info : AccessInfo Rdma) (n i : Nat) (addrs : List Nat)
    (res : List (Option PageId)) (l : Ledger) :
    Accounts (batchReadFrom d info n i addrs res) l (BatchLeaves l res addrs) := by
  induction addrs generalizing i res l with
  | nil => exact ⟨[], (List.append_nil res).symm, rfl, l.holdAll_zero.symm⟩
  | cons remoteVa rest ih =>
      -- What follows an entry of the result.
      have hnext : forall i' page l', l' = l.holdAll (fetchedPages [page]) ->
          Accounts (batchReadFrom d info n i' rest (res ++ [page])) l'
            (BatchLeaves l res (remoteVa :: rest)) := by
        intro i' page l' hheld
        rw [hheld]
        exact (ih i' (res ++ [page]) _).weaken fun pages l'' => BatchLeaves.step
      unfold batchReadFrom
      cases d.lookupPgTable remoteVa with
      | none => exact hnext (i + 1) none l l.holdAll_zero.symm
      | some remotePa =>
          simp only [invoke_bind]
          apply accounts_call
          · intro page hused
            cases hused
          · intro newPage
            have hkept : forall i', Accounts
                (batchReadFrom d info n i' rest (res ++ [some newPage])) (l.hold newPage)
                (BatchLeaves l res (remoteVa :: rest)) := by
              intro i'
              exact hnext i' (some newPage) _ (l.holdAll_singleton newPage).symm
            refine accounts_pageless True.intro fun qp => accounts_expect fun _ => ?_
            apply accounts_call (may_of_mem rfl (l.mem_hold newPage))
            intro posted
            by_cases hlast : (i == n - 1) = true
            · rw [if_pos hlast]
              refine accounts_pageless True.intro fun completion => ?_
              cases completion with
              | done => exact hkept (i + 1)
              | elapsed =>
                  apply accounts_freePage
                  exact hnext (i + 1) none l l.holdAll_zero.symm
              | failed =>
                  apply accounts_freePage
                  exact hnext (i + 1) none l l.holdAll_zero.symm
            · rw [if_neg hlast]
              exact hkept (i + 1)

theorem insertPages_accounts (vmaDes : VMADescriptor) (pages : List (Nat × Option PageId))
    (l : Ledger) :
    Accounts (insertPages vmaDes pages : KProg Regs Rdma Unit)
      (l.holdAll (fetchedPages (pages.map Prod.snd))) fun _ l' => l'.held = l.held := by
  induction pages generalizing l with
  | nil => exact zero_add l.held
  | cons page rest ih =>
      rcases page with ⟨addr, newPage⟩
      cases newPage with
      | none => exact ih l
      | some newPage =>
          have hcons : l.holdAll (fetchedPages (((addr, some newPage) :: rest).map Prod.snd)) =
              (l.holdAll (fetchedPages (rest.map Prod.snd))).hold newPage := by
            apply congrArg (Ledger.mk · l.lost)
            exact Multiset.cons_add newPage (fetchedPages (rest.map Prod.snd)) l.held
          have herase : ((l.holdAll (fetchedPages (rest.map Prod.snd))).hold newPage).held.erase
              newPage = fetchedPages (rest.map Prod.snd) + l.held :=
            Multiset.erase_cons_head newPage _
          rw [hcons]
          unfold insertPages
          simp only [invoke_bind]
          apply accounts_call (may_of_mem rfl (Ledger.mem_hold _ newPage))
          intro inserted
          cases inserted with
          | true =>
              simp only [PageLedger.after]
              rw [herase]
              exact ih l
          | false =>
              simp only [PageLedger.after]
              rw [herase]
              exact ih { l with lost := newPage ::ₘ l.lost }

theorem fetchBatch_balanced (vmaDes : VMADescriptor) (info : AccessInfo Rdma)
    (addrBuf : List Nat) : Balanced (fetchBatch d vmaDes info addrBuf) := by
  intro l
  apply (batchReadFrom_accounts d info addrBuf.length 0 addrBuf [] l).bind
  intro pages l' hbatched
  rcases hbatched with ⟨more, hpages, hlen, rfl⟩
  rw [List.nil_append] at hpages
  rw [hpages]
  have hinsert : Accounts (insertPages vmaDes (addrBuf.zip more) : KProg Regs Rdma Unit)
      (l.holdAll (fetchedPages ((addrBuf.zip more).map Prod.snd)))
      fun _ l' => l'.held = l.held :=
    insertPages_accounts vmaDes (addrBuf.zip more) l
  rw [List.map_snd_zip (le_of_eq hlen)] at hinsert
  exact hinsert

theorem fetchFull_balanced (vmaDes : VMADescriptor) (info : AccessInfo Rdma)
    (addrBuf : List Nat) : Balanced (fetchFull d vmaDes info addrBuf) := by
  unfold fetchFull
  by_cases hfull : batchLen = addrBuf.length
  · rw [if_pos hfull]
    exact fetchBatch_balanced d vmaDes info addrBuf
  · rw [if_neg hfull]
    exact balanced_ret ()

theorem eagerFetchLoop_balanced (vmaDes : VMADescriptor) (info : AccessInfo Rdma)
    (addrs addrBuf : List Nat) : Balanced (eagerFetchLoop d vmaDes info addrs addrBuf) := by
  induction addrs generalizing addrBuf with
  | nil => exact balanced_ret addrBuf
  | cons addr rest ih => exact (fetchFull_balanced d vmaDes info _).bind fun _ => ih _

theorem fetchAll_balanced (vmaDes : VMADescriptor) (info : AccessInfo Rdma)
    (addrs : List Nat) : Balanced (fetchAll d vmaDes info addrs) := by
  apply (eagerFetchLoop_balanced d vmaDes info _ _).bind
  intro addrBuf
  by_cases hempty : ¬ addrBuf.isEmpty
  · simp only [if_pos hempty]
    exact fetchBatch_balanced d vmaDes info addrBuf
  · simp only [if_neg hempty]
    exact balanced_ret ()

theorem eagerFetchVma_balanced (lib : KernelLib Regs Rdma) (vmaDes : VMADescriptor)
    (info : AccessInfo Rdma) : Balanced (eagerFetchVma lib d vmaDes info) := by
  rcases eagerFetchVma_eq lib d vmaDes info with ⟨_, msg, hpanic⟩ | ⟨addrs, _, hfetch⟩
  · rw [hpanic]
    exact balanced_panic msg
  · rw [hfetch]
    exact fetchAll_balanced d vmaDes info addrs

end Batches

/-!
## Commands and handlers
-/

section Commands

variable (lib : KernelLib Regs Rdma)

theorem keepAlloc_balanced (m : VMADescriptor) :
    Balanced (keepAlloc lib m : KProg Regs Rdma Unit) := by
  unfold keepAlloc
  by_cases halloc : containsAlloc lib m
  · rw [if_pos halloc]
    exact balanced_pageless True.intro fun _ => balanced_ret ()
  · rw [if_neg halloc]
    exact balanced_ret ()

theorem applyEager_balanced (d : HeapDescriptor Regs Rdma) (info : AccessInfo Rdma)
    (vmas : List VMADescriptor) : Balanced (applyEager lib d info vmas) := by
  induction vmas with
  | nil => exact balanced_ret ()
  | cons m rest ih =>
      have hbody : Balanced (applyVmaEager lib d info m rest.head?) := by
        refine balanced_pageless True.intro fun mapped => ?_
        cases mapped with
        | false => exact balanced_ret ()
        | true =>
            exact balanced_pageless True.intro fun _ =>
              (keepAlloc_balanced lib m).bind fun _ => eagerFetchVma_balanced d lib m info
      exact hbody.bind fun _ => ih

theorem applyLazy_balanced (vmas : List VMADescriptor) :
    Balanced (applyLazy lib vmas : KProg Regs Rdma Unit) := by
  induction vmas with
  | nil => exact balanced_ret ()
  | cons m rest ih =>
      have hbody : Balanced (applyVmaLazy lib m rest.head? : KProg Regs Rdma Unit) := by
        refine balanced_pageless True.intro fun mapped => ?_
        cases mapped with
        | false => exact balanced_ret ()
        | true => exact keepAlloc_balanced lib m
      exact hbody.bind fun _ => ih

theorem applyTo_balanced (d : HeapDescriptor Regs Rdma) (eagerFetch : Bool) :
    Balanced (applyTo lib d eagerFetch) := by
  cases eagerFetch with
  | false => exact applyLazy_balanced lib d.vma
  | true =>
      exact balanced_pageless True.intro fun info =>
        (balanced_expect _ info).bind fun info => applyEager_balanced lib d info d.vma

theorem lockCpu_balanced (cpu : CpuId) :
    Balanced (lockCpu lib cpu : KProg Regs Rdma Unit) := by
  rcases lockCpu_eq lib cpu with ⟨_, hlock⟩ | ⟨_, hlock⟩
  · rw [hlock]
    exact balanced_pageless True.intro fun _ => balanced_ret ()
  · rw [hlock]
    exact balanced_pageless True.intro fun _ => balanced_panic indexOutOfBounds

theorem unlockFail_balanced (cpu : CpuId) :
    Balanced (unlockFail cpu : KProg Regs Rdma Int) :=
  balanced_pageless True.intro fun _ => balanced_ret (-1)

theorem remoteDescriptorFetch_balanced (size phyStartAddr : UInt64) (session : SessionId) :
    Balanced (remoteDescriptorFetch size phyStartAddr session :
      KProg Regs Rdma (Option Bytes)) := by
  refine balanced_pageless True.intro fun ss => (balanced_expect _ ss).bind fun _ => ?_
  refine balanced_pageless True.intro fun qp => (balanced_expect _ qp).bind fun _ => ?_
  refine balanced_pageless True.intro fun posted => ?_
  cases posted with
  | false => exact balanced_ret none
  | true =>
      refine balanced_pageless True.intro fun completion => ?_
      cases completion with
      | done descriptorBuf => exact balanced_ret (some descriptorBuf)
      | elapsed => exact balanced_panic _
      | failed => exact balanced_ret none

theorem pullFetched_balanced (handlerId : UInt64) (cpu : CpuId) (eagerFetch : Bool)
    (descBuf : Bytes) : Balanced (pullFetched lib handlerId cpu eagerFetch descBuf) := by
  unfold pullFetched
  cases HeapDescriptor.deserialize lib descBuf with
  | error stop =>
      cases stop with
      | abort => exact balanced_panic addOverflow
      | reject => exact unlockFail_balanced cpu
  | ok des =>
      refine balanced_pageless True.intro fun info => ?_
      cases info with
      | none => exact unlockFail_balanced cpu
      | some info =>
          refine (applyTo_balanced lib des eagerFetch).bind fun _ => ?_
          exact balanced_pageless True.intro fun _ =>
            balanced_pageless True.intro fun _ => balanced_ret 0

theorem pullReplied_balanced (handlerId : UInt64) (cpu : CpuId) (session : SessionId)
    (eagerFetch : Bool) (reply : HeapDescriptorQueryReply) :
    Balanced (pullReplied lib handlerId cpu session eagerFetch reply) := by
  unfold pullReplied
  by_cases hready : ¬ reply.ready
  · rw [if_pos hready]
    exact unlockFail_balanced cpu
  · rw [if_neg hready]
    refine (remoteDescriptorFetch_balanced _ _ _).bind fun descBuf => ?_
    cases descBuf with
    | none => exact unlockFail_balanced cpu
    | some descBuf => exact pullFetched_balanced lib handlerId cpu eagerFetch descBuf

theorem syscallRmap_balanced (handlerId machineId : UInt64) (eagerFetch : Bool) :
    Balanced (syscallRmap lib handlerId machineId eagerFetch) := by
  refine balanced_pageless True.intro fun cpu => (lockCpu_balanced lib cpu).bind fun _ => ?_
  refine balanced_pageless True.intro fun caller => (balanced_expect _ caller).bind fun _ => ?_
  refine balanced_pageless True.intro fun machine => ?_
  refine balanced_pageless True.intro fun sent => ?_
  cases sent with
  | false => exact unlockFail_balanced cpu
  | true =>
      refine balanced_pageless True.intro fun reply => ?_
      cases reply with
      | none => exact unlockFail_balanced cpu
      | some reply =>
          refine balanced_pageless True.intro fun buf => (balanced_expect _ buf).bind fun _ => ?_
          cases lib.queryReply.decode reply with
          | none => exact unlockFail_balanced cpu
          | some d => exact pullReplied_balanced lib handlerId cpu _ eagerFetch d

theorem registerHeap_balanced (key : UInt64) (heapStart : Nat) :
    Balanced (registerHeap key heapStart : KProg Regs Rdma Unit) :=
  balanced_pageless True.intro fun descriptor => (balanced_expect _ descriptor).bind fun _ =>
    balanced_pageless True.intro fun _ => balanced_ret ()

theorem remoteRegisterCall_balanced (localHint machineId : UInt64) (buf : UInt64 × Nat) :
    Balanced (remoteRegisterCall lib localHint machineId buf) := by
  unfold remoteRegisterCall
  refine balanced_pageless True.intro fun source => ?_
  refine balanced_pageless True.intro fun cpu => (lockCpu_balanced lib cpu).bind fun _ => ?_
  refine balanced_pageless True.intro fun caller => (balanced_expect _ caller).bind fun _ => ?_
  refine balanced_pageless True.intro fun machine => ?_
  refine balanced_pageless True.intro fun sent => ?_
  cases sent with
  | false => exact unlockFail_balanced cpu
  | true =>
      refine balanced_pageless True.intro fun reply => ?_
      cases reply with
      | none => exact unlockFail_balanced cpu
      | some reply =>
          refine balanced_pageless True.intro fun buf => (balanced_expect _ buf).bind fun _ => ?_
          cases lib.registerReply.decode reply with
          | none => exact unlockFail_balanced cpu
          | some reply =>
              exact balanced_pageless True.intro fun _ =>
                balanced_pageless True.intro fun _ => balanced_ret _

theorem ioctrl_balanced (req : Request) : Balanced (Kernel.ioctrl lib req) := by
  cases req with
  | register heapBase =>
      refine balanced_pageless True.intro fun current => ?_
      cases current with
      | some hint => exact balanced_ret _
      | none =>
          refine balanced_pageless True.intro fun id => (balanced_expect _ id).bind fun id => ?_
          refine ((registerHeap_balanced id _).bind fun _ => balanced_ret 0).bind fun _ => ?_
          exact balanced_pageless True.intro fun _ => balanced_ret _
  | pull heapHint machineId eagerFetch => exact syscallRmap_balanced lib _ _ eagerFetch
  | registerRemote heapBase machineId =>
      refine balanced_pageless True.intro fun id => (balanced_expect _ id).bind fun id => ?_
      refine (registerHeap_balanced id _).bind fun _ => ?_
      refine balanced_pageless True.intro fun buf => ?_
      cases buf with
      | none => exact balanced_ret (-1)
      | some buf => exact remoteRegisterCall_balanced lib id _ buf

theorem connect_balanced (user : UserMemory) (arg : UInt64) :
    Balanced (connect user arg : KProg Regs Rdma Int) := by
  refine (balanced_expect _ _).bind fun addr => ?_
  refine balanced_pageless True.intro fun probed => ?_
  cases probed with
  | none => exact balanced_ret (-1)
  | some _ => exact balanced_ret 0

theorem getMacId_balanced (req : GetMacIdReq) :
    Balanced (getMacId req : KProg Regs Rdma Int) := by
  refine balanced_pageless True.intro fun context => ?_
  cases context with
  | none => exact balanced_ret 0
  | some gidStr =>
      exact balanced_pageless True.intro fun _ => balanced_pageless True.intro fun _ =>
        balanced_pageless True.intro fun _ => balanced_ret _

theorem dispatch_balanced (cmd : UInt32) (arg : UInt64) (user : UserMemory) :
    Balanced (DmergeSyscallHandler.ioctrl lib cmd arg user) := by
  unfold DmergeSyscallHandler.ioctrl
  split
  · exact ioctrl_balanced lib _
  · exact ioctrl_balanced lib _
  · exact connect_balanced user arg
  · exact getMacId_balanced _
  · exact ioctrl_balanced lib _
  · exact balanced_ret (-1)

theorem handleQuery_balanced (input output : Bytes) :
    Balanced (handleQuery lib input output) := by
  refine balanced_pageless True.intro fun buf => ?_
  cases buf with
  | none => exact balanced_ret _
  | some buf => exact balanced_ret _

theorem handleRemoteRegister_balanced (input output : Bytes) :
    Balanced (handleRemoteRegister lib input output) := by
  have hfetch : forall req, Balanced (handleRemoteRegisterFetchApply lib req) := by
    intro req
    refine balanced_pageless True.intro fun cpu => (lockCpu_balanced lib cpu).bind fun _ => ?_
    refine balanced_pageless True.intro fun caller => (balanced_expect _ caller).bind fun _ => ?_
    refine (remoteDescriptorFetch_balanced _ _ _).bind fun descBuf => ?_
    cases descBuf with
    | none => exact unlockFail_balanced cpu
    | some descBuf =>
        simp only
        cases HeapDescriptor.deserialize lib descBuf with
        | error stop =>
            cases stop with
            | abort => exact balanced_panic addOverflow
            | reject => exact unlockFail_balanced cpu
        | ok des =>
            refine balanced_pageless True.intro fun info => ?_
            cases info with
            | none => exact unlockFail_balanced cpu
            | some info => exact balanced_pageless True.intro fun _ => balanced_ret _
  refine (hfetch _).bind fun heapHint => ?_
  by_cases hneg : heapHint < 0
  · rw [if_pos hneg]
    exact balanced_ret _
  · rw [if_neg hneg]
    exact balanced_ret _

theorem handleEcho_balanced (input output : Bytes) :
    Balanced (handleEcho lib input output) :=
  (balanced_expect _ _).bind fun _ => balanced_ret _

theorem Entry.code_balanced (e : Entry) : Balanced (e.code lib) := by
  cases e with
  | nil input output => exact balanced_ret _
  | echo input output => exact (handleEcho_balanced lib input output).bind fun _ => balanced_ret _
  | ioctrl cmd arg user => exact (dispatch_balanced lib cmd arg user).bind fun _ => balanced_ret _
  | query input output => exact (handleQuery_balanced lib input output).bind fun _ => balanced_ret _
  | remoteRegister input output =>
      exact (handleRemoteRegister_balanced lib input output).bind fun _ => balanced_ret _

end Commands

/-!
## Where the pages went
-/

def insertOutcome : (o : KernelOp Regs Rdma) -> o.Res -> Option (PageId × Bool)
  | .vmInsertPage _ _ page, inserted => some (page, inserted)
  | _, _ => none

def insertions (ended : Bool) (trace : Trace Regs Rdma) : List PageId :=
  trace.filterMap fun e => (insertOutcome e.op e.res).bind fun i =>
    if i.2 = ended then some i.1 else none

/-- Each page that was allocated in a trace is held after it, was freed once, was inserted
once, or was lost once. -/
structure Settles (l : Ledger) (trace : Trace Regs Rdma) (l' : Ledger) : Prop where
  pages : (allocatedIn trace : Multiset PageId) + l.held =
    (freedIn trace : Multiset PageId) + (insertions true trace : Multiset PageId) +
      (insertions false trace : Multiset PageId) + l'.held
  lost : l'.lost = (insertions false trace : Multiset PageId) + l.lost

theorem settle_erase {page : PageId} {held allocated rest : Multiset PageId} (hmem : page ∈ held)
    (h : allocated + held.erase page = rest) : allocated + held = page ::ₘ rest := by
  rw [← Multiset.cons_erase hmem, Multiset.add_cons, h]

theorem settles_follow (l : Ledger) (trace : Trace Regs Rdma)
    (hallows : (pageLedger Regs Rdma).Allows l trace) :
    Settles l trace ((pageLedger Regs Rdma).follow l trace) := by
  induction trace generalizing l with
  | nil => exact ⟨rfl, (zero_add l.lost).symm⟩
  | cons e rest ih =>
      rcases e with ⟨o, r⟩
      rcases hallows with ⟨hmay, hrest⟩
      have hih := ih _ hrest
      cases o with
      | allocPage =>
          refine ⟨?_, hih.lost⟩
          have hpages := hih.pages
          rw [show ((pageLedger Regs Rdma).after l .allocPage r).held = r ::ₘ l.held from rfl,
            Multiset.add_cons, ← Multiset.cons_add] at hpages
          exact hpages
      | freePage page =>
          refine ⟨?_, hih.lost⟩
          have hpages := settle_erase (hmay page rfl) hih.pages
          rw [← Multiset.cons_add, ← Multiset.cons_add, ← Multiset.cons_add] at hpages
          exact hpages
      | vmInsertPage m addr page =>
          have hmem : page ∈ l.held := hmay page rfl
          cases r with
          | true =>
              refine ⟨?_, hih.lost⟩
              have hpages := settle_erase hmem hih.pages
              rw [← Multiset.cons_add, ← Multiset.cons_add, ← Multiset.add_cons] at hpages
              exact hpages
          | false =>
              constructor
              · have hpages := settle_erase hmem hih.pages
                rw [← Multiset.cons_add, ← Multiset.add_cons] at hpages
                exact hpages
              · have hlost := hih.lost
                rw [show ((pageLedger Regs Rdma).after l (.vmInsertPage m addr page) false).lost =
                  page ::ₘ l.lost from rfl, Multiset.add_cons, ← Multiset.cons_add] at hlost
                exact hlost
      | _ => exact ⟨hih.pages, hih.lost⟩

/-- Whatever the user, the other machines and the network do, an entry of the module uses
only pages that it has allocated and neither freed nor inserted nor lost yet, and when it
returns it holds none: each page that it allocated was freed once, inserted once, or lost
once, in an insertion that the kernel refused. -/
theorem entry_pages_accounted (lib : KernelLib Regs Rdma) (e : Entry)
    (trace : List (Exchange (kernelSig Regs Rdma))) (out : Outcome Returned)
    (hexec : Executes (e.code lib) trace out) :
    (pageLedger Regs Rdma).Allows PageLedger.empty trace ∧
      forall returned, out = .returned returned ->
        ((pageLedger Regs Rdma).follow PageLedger.empty trace).held = 0 ∧
          Settles PageLedger.empty trace
            ((pageLedger Regs Rdma).follow PageLedger.empty trace) := by
  rcases Conforms.executes (Entry.code_balanced lib e PageLedger.empty) hexec with
    ⟨hallows, hpost⟩
  refine ⟨hallows, ?_⟩
  rintro returned rfl
  exact ⟨hpost, settles_follow PageLedger.empty trace hallows⟩

/-- The surroundings of an eager pull of a heap of one page.  The kernel inserts a page or
does not. -/
def eagerAnswers (inserts : Bool) : Answers UInt64 UInt64
  | .vmInsertPage _ _ _ => inserts
  | o =>
      obliging
        (some (plainLib.queryReply.encode
          { pa := 0, sz := UInt64.ofNat ((onePage 28672).encode plainLib).length, ready := true }))
        ((onePage 28672).encode plainLib) o

def eagerPull (inserts : Bool) : List (Exchange (kernelSig UInt64 UInt64)) × Outcome Returned :=
  execution (.ioctrl 1 4096 fun _ => toLE 4 1 ++ (toLE 4 2 ++ toLE 4 1)) (eagerAnswers inserts)

theorem entry_pages_accounted_eager :
    (eagerPull false).2 = .returned (.result 0) ∧ insertions false (eagerPull false).1 = [0] ∧
      (pageLedger UInt64 UInt64).Allows PageLedger.empty (eagerPull false).1 ∧
        ((pageLedger UInt64 UInt64).follow PageLedger.empty (eagerPull false).1).held = 0 ∧
          Settles PageLedger.empty (eagerPull false).1
            ((pageLedger UInt64 UInt64).follow PageLedger.empty (eagerPull false).1) := by
  have hreturned : (eagerPull false).2 = .returned (.result 0) := by
    decide +kernel
  have hrefused : insertions false (eagerPull false).1 = [0] := by
    decide +kernel
  have haccounted := entry_pages_accounted plainLib _ (eagerPull false).1 (eagerPull false).2
    (executes_execution _ _)
  exact ⟨hreturned, hrefused, haccounted.1, haccounted.2 _ hreturned⟩

end Kernel
end Dmerge
