import Dmerge.Kernel.Pages

/-!
# The protocol of a fetch

A fetch reads each remote page into a local page that it was just given, and
hands a local page over at an address only when that page is read from the frame
that the descriptor maps there.  A read at a fault is waited for; the reads of a
batch are posted one after the other.
-/

namespace Dmerge
namespace Kernel

open Foundation Memory Descriptors Producer Prog

variable {Regs Rdma : Type}

inductive ReadStatus where
  | posted
  | done
  deriving DecidableEq, Repr

/-- What a fetch knows of its local pages: the one it was just given, and the frame
that each of the others is read from. -/
structure FetchState where
  fresh : Option PageId
  source : PageId -> Option (Nat × ReadStatus)

namespace FetchState

def init : FetchState where
  fresh := none
  source _ := none

def assign (g : FetchState) (page : PageId) (frame : Nat) (status : ReadStatus) : FetchState where
  fresh := none
  source := Function.update g.source page (some (frame, status))

def discard (g : FetchState) (page : PageId) : FetchState where
  fresh := none
  source := Function.update g.source page none

theorem assign_source_self (g : FetchState) (page : PageId) (frame : Nat)
    (status : ReadStatus) : (g.assign page frame status).source page = some (frame, status) :=
  Function.update_self _ _ _

theorem assign_source_of_ne (g : FetchState) {page other : PageId} (frame : Nat)
    (status : ReadStatus) (hne : other ≠ page) :
    (g.assign page frame status).source other = g.source other :=
  Function.update_of_ne hne _ _

theorem discard_source_self (g : FetchState) (page : PageId) :
    (g.discard page).source page = none :=
  Function.update_self _ _ _

theorem discard_source_of_ne (g : FetchState) {page other : PageId} (hne : other ≠ page) :
    (g.discard page).source other = g.source other :=
  Function.update_of_ne hne _ _

end FetchState

def Frame (d : HeapDescriptor Regs Rdma) (pa : Nat) : Prop :=
  exists va, d.lookupPgTable va = some pa

def fetchProtocol (d : HeapDescriptor Regs Rdma) : Protocol (kernelSig Regs Rdma) where
  State := FetchState
  may g
    | .allocPage | .accessInfoNew _ | .getDcQpKey | .blockOnPageReads => True
    | .freePage page => g.fresh = some page ∨ (g.source page).isSome
    | .remoteRead page pa _ => g.fresh = some page ∧ Frame d pa
    | .postPageRead page pa _ _ => g.fresh = some page ∧ Frame d pa
    | .vmInsertPage _ addr page => exists pa status,
        d.lookupPgTable addr = some pa ∧ g.source page = some (pa, status)
    | _ => False
  next g
    | .allocPage, page, g' => g.source page = none ∧ g' = { g with fresh := some page }
    | .freePage page, _, g' => g' = g.discard page
    | .remoteRead page pa _, ok, g' => g' = if ok = true then g.assign page pa .done else g
    -- A post that fails is not told apart from one that succeeds.
    | .postPageRead page pa _ _, _, g' => g' = g.assign page pa .posted
    | _, _, g' => g' = g

def Carries (d : HeapDescriptor Regs Rdma) (va : Nat) (g : FetchState) (page : PageId) : Prop :=
  exists pa, d.lookupPgTable va = some pa ∧ g.source page = some (pa, .done)

/-!
## One page
-/

section OnePage

variable {d : HeapDescriptor Regs Rdma}

def ReadEnds (d : HeapDescriptor Regs Rdma) (va : Nat) (g : FetchState)
    (out : Outcome (Option PageId)) : Prop :=
  forall page, out = .returned (some page) -> Carries d va g page

theorem readEnds_none {va : Nat} {g : FetchState} : ReadEnds d va g (.returned none) := by
  intro page h
  cases h

theorem readRemotePage_conforms (va : Nat) (info : AccessInfo Rdma) (g : FetchState) :
    (readRemotePage d va info).Conforms (fetchProtocol d) (ReadEnds d va) g := by
  unfold readRemotePage
  cases hlookup : d.lookupPgTable va with
  | none => exact readEnds_none
  | some pa =>
      simp only [invoke_bind]
      refine ⟨True.intro, fun newPage g' hnext => ?_⟩
      have hfresh : g.source newPage = none ∧ g' = { g with fresh := some newPage } := hnext
      rw [hfresh.2]
      refine ⟨⟨rfl, va, hlookup⟩, fun ok g'' hnext => ?_⟩
      cases ok with
      | true =>
          rw [show g'' = _ from hnext]
          intro page hpage
          cases hpage
          exact ⟨pa, hlookup, g.assign_source_self newPage pa .done⟩
      | false =>
          rw [show g'' = _ from hnext]
          exact ⟨Or.inl rfl, fun _ _ _ => readEnds_none⟩

theorem findPage_conforms (va : Nat) (heaps : List (HeapDataStruct Regs Rdma))
    (hheaps : forall heap, heap ∈ heaps -> heap.descriptor = d) (g : FetchState) :
    (findPage va heaps).Conforms (fetchProtocol d) (ReadEnds d va) g := by
  induction heaps generalizing g with
  | nil => exact readEnds_none
  | cons heap rest ih =>
      have hrest := ih fun heap hin => hheaps heap (List.mem_cons_of_mem _ hin)
      have hd : heap.descriptor = d := hheaps heap List.mem_cons_self
      unfold findPage
      rw [hd]
      cases d.lookupPgTable va with
      | none => exact hrest g
      | some pa =>
          simp only [invoke_bind]
          refine ⟨True.intro, fun info g' hnext => ?_⟩
          rw [show g' = g from hnext]
          cases info with
          | none => exact hrest g
          | some info =>
              apply (readRemotePage_conforms va info g).bind
              · intro g page hends
                cases page with
                | none => exact hrest g
                | some page => exact hends
              · intro g msg _ page hend
                cases hend

def FaultEnds (d : HeapDescriptor Regs Rdma) (va : Nat) (g : FetchState)
    (out : Outcome FaultResult) : Prop :=
  forall page, out = .returned (.page page) -> Carries d va g page

theorem handlePageFault_conforms (va : Nat) (heaps : List (HeapDataStruct Regs Rdma))
    (hheaps : forall heap, heap ∈ heaps -> heap.descriptor = d) (g : FetchState) :
    (handlePageFault heaps va).Conforms (fetchProtocol d) (FaultEnds d va) g := by
  apply (findPage_conforms va heaps hheaps g).bind
  · intro g page hends
    cases page with
    | none =>
        intro page hend
        cases hend
    | some page =>
        intro page' hend
        cases hend
        exact hends page rfl
  · intro g msg _ page hend
    cases hend

end OnePage

/-!
## Batches
-/

def PagesFor (d : HeapDescriptor Regs Rdma) (g : FetchState)
    (pages : List (Nat × Option PageId)) : Prop :=
  forall addr page, (addr, some page) ∈ pages -> exists pa status,
    d.lookupPgTable addr = some pa ∧ g.source page = some (pa, status)

section Batches

variable {d : HeapDescriptor Regs Rdma} {g : FetchState}

theorem PagesFor.append {pages : List (Nat × Option PageId)} (h : PagesFor d g pages)
    {addr : Nat} {page : Option PageId}
    (hpage : forall newPage, page = some newPage -> exists pa status,
      d.lookupPgTable addr = some pa ∧ g.source newPage = some (pa, status)) :
    PagesFor d g (pages ++ [(addr, page)]) := by
  intro addr' page' hin
  cases List.mem_append.mp hin with
  | inl hold => exact h addr' page' hold
  | inr hnew =>
      cases List.mem_singleton.mp hnew
      exact hpage page' rfl

theorem PagesFor.update {pages : List (Nat × Option PageId)} (h : PagesFor d g pages)
    {newPage : PageId} (hnew : g.source newPage = none) {g' : FetchState}
    (hother : forall page, page ≠ newPage -> g'.source page = g.source page) :
    PagesFor d g' pages := by
  intro addr page hin
  rcases h addr page hin with ⟨pa, status, hlookup, hsource⟩
  have hne : page ≠ newPage := by
    intro heq
    rw [heq, hnew] at hsource
    cases hsource
  exact ⟨pa, status, hlookup, by rw [hother page hne, hsource]⟩

theorem zip_snoc {alpha beta : Type} {xs : List alpha} {ys : List beta}
    (hlen : xs.length = ys.length) (x : alpha) (y : beta) :
    (xs ++ [x]).zip (ys ++ [y]) = xs.zip ys ++ [(x, y)] := by
  rw [List.zip_append hlen]
  rfl

def BatchEnds (d : HeapDescriptor Regs Rdma) (addrs : List Nat) (g : FetchState)
    (out : Outcome (List (Option PageId))) : Prop :=
  forall pages, out = .returned pages -> PagesFor d g (addrs.zip pages)

theorem batchReadFrom_conforms (info : AccessInfo Rdma) (n i : Nat) (done rest : List Nat)
    (res : List (Option PageId)) (hlen : done.length = res.length) (g : FetchState)
    (hpages : PagesFor d g (done.zip res)) :
    (batchReadFrom d info n i rest res).Conforms (fetchProtocol d) (BatchEnds d (done ++ rest))
      g := by
  induction rest generalizing i done res g with
  | nil =>
      intro pages hend
      cases hend
      rwa [List.append_nil]
  | cons va rest ih =>
      -- The rest of the batch, once the page of this address is settled.
      have hnext : forall (page : Option PageId) (g : FetchState),
          PagesFor d g (done.zip res ++ [(va, page)]) ->
            (batchReadFrom d info n (i + 1) rest (res ++ [page])).Conforms (fetchProtocol d)
              (BatchEnds d (done ++ va :: rest)) g := by
        intro page g hpage
        have hlen' : (done ++ [va]).length = (res ++ [page]).length := by
          simp only [List.length_append, hlen, List.length_singleton]
        have hrest := ih (i + 1) (done ++ [va]) (res ++ [page]) hlen' g
          (by rw [zip_snoc hlen]; exact hpage)
        rwa [List.append_assoc, List.singleton_append] at hrest
      unfold batchReadFrom
      cases hlookup : d.lookupPgTable va with
      | none =>
          apply hnext none g
          exact hpages.append fun newPage h => by cases h
      | some pa =>
          simp only [invoke_bind]
          refine ⟨True.intro, fun newPage g' hgiven => ?_⟩
          have hfresh : g.source newPage = none ∧ g' = { g with fresh := some newPage } := hgiven
          rw [hfresh.2]
          refine ⟨True.intro, fun qp g' hsame => ?_⟩
          rw [show g' = _ from hsame]
          cases qp with
          | none =>
              intro pages hend
              cases hend
          | some qp =>
              simp only [expect_some, ret_bind]
              refine ⟨⟨rfl, va, hlookup⟩, fun posted g' hassign => ?_⟩
              rw [show g' = _ from hassign]
              have hother : forall page, page ≠ newPage ->
                  (FetchState.assign { g with fresh := some newPage } newPage pa .posted).source
                    page = g.source page :=
                fun page hne => FetchState.assign_source_of_ne _ pa .posted hne
              have hread : PagesFor d
                  (FetchState.assign { g with fresh := some newPage } newPage pa .posted)
                  (done.zip res ++ [(va, some newPage)]) := by
                apply (hpages.update hfresh.1 hother).append
                intro page hpage
                cases hpage
                exact ⟨pa, .posted, hlookup, FetchState.assign_source_self _ newPage pa .posted⟩
              split
              · refine ⟨True.intro, fun completion g' hsame => ?_⟩
                rw [show g' = _ from hsame]
                have hfailed : forall g' : FetchState,
                    g' = FetchState.discard
                      (FetchState.assign { g with fresh := some newPage } newPage pa .posted)
                      newPage ->
                    (batchReadFrom d info n (i + 1) rest (res ++ [none])).Conforms
                      (fetchProtocol d) (BatchEnds d (done ++ va :: rest)) g' := by
                  intro g' hg'
                  apply hnext none g'
                  apply (hpages.update hfresh.1 _).append fun newPage h => by cases h
                  intro page hne
                  rw [hg']
                  exact (FetchState.discard_source_of_ne _ hne).trans (hother page hne)
                have hgiven : ((FetchState.assign { g with fresh := some newPage } newPage pa
                    .posted).source newPage).isSome := by
                  rw [FetchState.assign_source_self]
                  rfl
                cases completion with
                | done u => exact hnext (some newPage) _ hread
                | elapsed => exact ⟨Or.inr hgiven, fun _ g' hg' => hfailed g' hg'⟩
                | failed => exact ⟨Or.inr hgiven, fun _ g' hg' => hfailed g' hg'⟩
              · exact hnext (some newPage) _ hread

def Anything {alpha : Type} (_ : FetchState) (_ : Outcome alpha) : Prop :=
  True

theorem insertPages_conforms (vmaDes : VMADescriptor) (pages : List (Nat × Option PageId))
    (hpages : PagesFor d g pages) :
    (insertPages vmaDes pages : KProg Regs Rdma Unit).Conforms (fetchProtocol d) Anything g := by
  induction pages with
  | nil => exact True.intro
  | cons entry rest ih =>
      have hrest : PagesFor d g rest := fun addr page hin =>
        hpages addr page (List.mem_cons_of_mem _ hin)
      rcases entry with ⟨addr, page⟩
      cases page with
      | none => exact ih hrest
      | some page =>
          refine ⟨hpages addr page List.mem_cons_self, fun _ g' hsame => ?_⟩
          rw [show g' = g from hsame]
          exact ih hrest

theorem fetchBatch_conforms (vmaDes : VMADescriptor) (info : AccessInfo Rdma)
    (addrBuf : List Nat) (g : FetchState) :
    (fetchBatch d vmaDes info addrBuf).Conforms (fetchProtocol d) Anything g := by
  have hnone : PagesFor d g [] := fun _ _ hin => by cases hin
  have hbatch := batchReadFrom_conforms info addrBuf.length 0 [] addrBuf [] rfl g hnone
  apply hbatch.bind
  · intro g pages hends
    exact insertPages_conforms vmaDes _ (hends pages rfl)
  · intro g msg _
    exact True.intro

theorem eagerFetchLoop_conforms (vmaDes : VMADescriptor) (info : AccessInfo Rdma)
    (addrs addrBuf : List Nat) (g : FetchState) :
    (eagerFetchLoop d vmaDes info addrs addrBuf).Conforms (fetchProtocol d) Anything g := by
  induction addrs generalizing addrBuf g with
  | nil => exact True.intro
  | cons addr rest ih =>
      have hfull : forall addrBuf, (fetchFull d vmaDes info addrBuf).Conforms (fetchProtocol d)
          Anything g := by
        intro addrBuf
        unfold fetchFull
        split
        · exact fetchBatch_conforms vmaDes info addrBuf g
        · exact True.intro
      apply (hfull _).bind
      · exact fun g _ _ => ih _ g
      · exact fun _ _ _ => True.intro

theorem eagerFetchVma_conforms (lib : KernelLib Regs Rdma) (vmaDes : VMADescriptor)
    (info : AccessInfo Rdma) (g : FetchState) :
    (eagerFetchVma lib d vmaDes info).Conforms (fetchProtocol d) Anything g := by
  rcases eagerFetchVma_eq lib d vmaDes info with ⟨_, msg, hpanic⟩ | ⟨addrs, _, hfetch⟩
  · rw [hpanic]
    exact True.intro
  · rw [hfetch]
    apply (eagerFetchLoop_conforms vmaDes info addrs [] g).bind
    · intro g addrBuf _
      by_cases hempty : ¬ addrBuf.isEmpty
      · simp only [if_pos hempty]
        exact fetchBatch_conforms vmaDes info addrBuf g
      · simp only [if_neg hempty]
        exact True.intro
    · exact fun _ _ _ => True.intro

end Batches
end Kernel
end Dmerge
