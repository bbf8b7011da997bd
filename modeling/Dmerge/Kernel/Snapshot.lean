import Dmerge.Kernel.Machine
import Dmerge.Kernel.FetchProtocol
import Dmerge.Producer.AddressFidelity

/-!
# The producer's pages while they are fetched

A registered heap is described by the addresses of its frames.  The consumer
reads the frames whenever it needs a page, while the producer goes on writing to
its pages and giving them up, so the data that arrives is what the frame holds
at that moment.
-/

namespace Dmerge
namespace Kernel

open Foundation Memory Descriptors Producer

variable {Regs Rdma : Type}

/-!
## The memory of the producer
-/

structure ProducerMemory where
  /-- The frame of a page, or zero. -/
  frameOf : Nat -> UInt64
  contents : Nat -> Bytes

inductive ProducerAct where
  | write (va : Nat) (bytes : Bytes)
  | unmap (va : Nat)
  | map (va : Nat) (frame : UInt64)
  /-- A frame gets the data of its next user. -/
  | reuse (frame : UInt64) (bytes : Bytes)
  deriving DecidableEq, Repr

def ProducerMemory.step (mem : ProducerMemory) : ProducerAct -> Option ProducerMemory
  | .write va bytes =>
      if mem.frameOf va > 0 then
        some { mem with contents := Function.update mem.contents (mem.frameOf va).toNat bytes }
      else none
  | .unmap va => some { mem with frameOf := Function.update mem.frameOf va 0 }
  | .map va frame => some { mem with frameOf := Function.update mem.frameOf va frame }
  | .reuse frame bytes =>
      some { mem with contents := Function.update mem.contents frame.toNat bytes }

/-!
## The fetches of the consumer
-/

inductive Fetch (Rdma : Type) where
  | fault (va : Nat)
  | eager (m : VMADescriptor) (info : AccessInfo Rdma)

def Fetch.program (lib : KernelLib Regs Rdma) (heap : HeapDataStruct Regs Rdma) :
    Fetch Rdma -> KProg Regs Rdma (Option PageId)
  | .fault va => do
      match ← handlePageFault [heap] va with
      | .page newPage => return some newPage
      | .sigsegv => return none
  | .eager m info => do
      eagerFetchVma lib heap.descriptor m info
      return none

/-- A page handed to the consumer, with its data if that has arrived. -/
structure Fetched where
  va : Nat
  data : Option Bytes
  deriving DecidableEq, Repr

structure Sharing (Regs Rdma : Type) where
  memory : ProducerMemory
  /-- The reads on the wire: the local page and the remote frame. -/
  posted : List (PageId × Nat)
  /-- The data of a local page. -/
  filled : PageId -> Option Bytes
  /-- The fetch that a local page was given to. -/
  owner : PageId -> Option Nat
  fetches : Nat -> Option (Fetch Rdma × KProg Regs Rdma (Option PageId))

inductive SharingAct (Regs Rdma : Type) where
  | producer (a : ProducerAct)
  | start (t : Nat) (fetch : Fetch Rdma)
  | resume (t : Nat) (env : Answers Regs Rdma)
  /-- A read on the wire is made. -/
  | land (i : Nat)

namespace Sharing

def init (memory : ProducerMemory) : Sharing Regs Rdma where
  memory := memory
  posted := []
  filled _ := none
  owner _ := none
  fetches _ := none

/-- The answer to a call of a fetch.  A page that is handed out is in no other use.  A
wait may complete for a read of an earlier fetch. -/
def serve (t : Nat) (env : Answers Regs Rdma) (s : Sharing Regs Rdma) :
    (o : KernelOp Regs Rdma) -> Option (o.Res × Sharing Regs Rdma × List Fetched)
  | .allocPage =>
      let newPage : PageId := env .allocPage
      if s.owner newPage = none then
        some (newPage,
          { s with
              owner := Function.update s.owner newPage (some t)
              filled := Function.update s.filled newPage none }, [])
      else none
  | .freePage page => some ((), { s with owner := Function.update s.owner page none }, [])
  | .remoteRead page pa info =>
      let ok := env (.remoteRead page pa info)
      some (ok,
        if ok = true then
          { s with filled := Function.update s.filled page (some (s.memory.contents pa)) }
        else s, [])
  | .postPageRead page pa info signaled =>
      let ok := env (.postPageRead page pa info signaled)
      some (ok, if ok = true then { s with posted := s.posted ++ [(page, pa)] } else s, [])
  | .vmInsertPage m addr page =>
      let ok := env (.vmInsertPage m addr page)
      some (ok, s, if ok = true then [{ va := addr, data := s.filled page }] else [])
  | o => some (env o, s, [])

def setFetch (s : Sharing Regs Rdma) (t : Nat)
    (fetch : Option (Fetch Rdma × KProg Regs Rdma (Option PageId))) : Sharing Regs Rdma :=
  { s with fetches := Function.update s.fetches t fetch }

def installed (s : Sharing Regs Rdma) : Fetch Rdma -> Option PageId -> List Fetched
  | .fault va, some page => [{ va := va, data := s.filled page }]
  | _, _ => []

def step (lib : KernelLib Regs Rdma) (heap : HeapDataStruct Regs Rdma) (s : Sharing Regs Rdma) :
    SharingAct Regs Rdma -> Option (Sharing Regs Rdma × List Fetched)
  | .producer a => (s.memory.step a).map fun memory => ({ s with memory := memory }, [])
  | .start t fetch =>
      if (s.fetches t).isNone then
        some (s.setFetch t (some (fetch, fetch.program lib heap)), [])
      else none
  | .resume t env =>
      match s.fetches t with
      | some (fetch, .call o k) =>
          (s.serve t env o).map fun (r, s, now) => (s.setFetch t (some (fetch, k r)), now)
      | some (fetch, .ret page) => some (s.setFetch t none, s.installed fetch page)
      | _ => none
  | .land i =>
      match s.posted[i]? with
      | none => none
      | some (page, pa) =>
          some
            ({ s with
                posted := s.posted.eraseIdx i
                filled := Function.update s.filled page (some (s.memory.contents pa)) }, [])

end Sharing

/-- The frames that a descriptor records. -/
def recordedFrames (d : ParentDescriptor Regs Rdma) : List Nat :=
  d.pageTable.flatMap fun pt => pt.map fun e => e.2.toNat

/-- The recorded frames keep their data, the data of a batch has arrived when its
pages are inserted, and no page is handed out while a read into it is on the
wire. -/
def Undisturbed (frames : List Nat) (s : Sharing Regs Rdma) : SharingAct Regs Rdma -> Prop
  | .producer a =>
      match s.memory.step a with
      | none => True
      | some memory =>
          forall frame, frame ∈ frames -> memory.contents frame = s.memory.contents frame
  | .resume t env =>
      match s.fetches t with
      | some (_, .call (.vmInsertPage _ _ page) _) => (s.filled page).isSome
      | some (_, .call .allocPage _) =>
          forall r, r ∈ s.posted -> r.1 ≠ (show PageId from env .allocPage)
      | _ => True
  | _ => True

instance (frames : List Nat) (s : Sharing Regs Rdma) (a : SharingAct Regs Rdma) :
    Decidable (Undisturbed frames s a) := by
  unfold Undisturbed
  split
  · split <;> infer_instance
  · split <;> infer_instance
  · infer_instance

/-!
## What a fetch knows of its pages
-/

/-- The pages of a fetch: each is its own, and holds nothing else than the data of
the frame that it is read from. -/
structure HoldsPages (d : HeapDescriptor Regs Rdma) (snapshot : Nat -> Bytes) (t : Nat)
    (g : FetchState) (s : Sharing Regs Rdma) : Prop where
  fresh_own : forall page, g.fresh = some page -> s.owner page = some t
  fresh_empty : forall page, g.fresh = some page -> s.filled page = none
  fresh_quiet : forall page, g.fresh = some page -> forall r, r ∈ s.posted -> r.1 ≠ page
  own : forall page pa status, g.source page = some (pa, status) -> s.owner page = some t
  data : forall page pa status, g.source page = some (pa, status) ->
    forall bytes, s.filled page = some bytes -> bytes = snapshot pa
  posted : forall page pa status, g.source page = some (pa, status) ->
    forall r, r ∈ s.posted -> r.1 = page -> r.2 = pa
  done : forall page pa, g.source page = some (pa, .done) -> (s.filled page).isSome

structure KeepsPages (t : Nat) (s s' : Sharing Regs Rdma) : Prop where
  owner : forall page, s.owner page = some t -> s'.owner page = some t
  filled : forall page, s.owner page = some t -> s'.filled page = s.filled page
  posted : forall page, s.owner page = some t -> forall r, r ∈ s'.posted -> r.1 = page ->
    r ∈ s.posted

def Fetched.Consistent (d : HeapDescriptor Regs Rdma) (snapshot : Nat -> Bytes)
    (e : Fetched) : Prop :=
  exists pa, d.lookupPgTable e.va = some pa ∧ e.data = some (snapshot pa)

def FetchEnds (d : HeapDescriptor Regs Rdma) (fetch : Fetch Rdma) (g : FetchState)
    (out : Outcome (Option PageId)) : Prop :=
  forall va page, fetch = .fault va -> out = .returned (some page) -> Carries d va g page

theorem program_conforms (lib : KernelLib Regs Rdma) (heap : HeapDataStruct Regs Rdma)
    (fetch : Fetch Rdma) (g : FetchState) :
    (fetch.program lib heap).Conforms (fetchProtocol heap.descriptor)
      (FetchEnds heap.descriptor fetch) g := by
  cases fetch with
  | fault va =>
      have hfault : (handlePageFault [heap] va).Conforms (fetchProtocol heap.descriptor)
          (FaultEnds heap.descriptor va) g :=
        handlePageFault_conforms va [heap] (fun heap' hin => by rw [List.mem_singleton.mp hin]) g
      apply hfault.bind
      · intro g result hends
        cases result with
        | sigsegv =>
            intro va' page _ hend
            cases hend
        | page newPage =>
            intro va' page hva hend
            cases hva
            cases hend
            exact hends newPage rfl
      · intro g msg _ va' page _ hend
        cases hend
  | eager m info =>
      apply (eagerFetchVma_conforms lib m info g).bind
      · intro g u _ va page hfetch
        cases hfetch
      · intro g msg _ va page hfetch
        cases hfetch

section Pages

variable {d : HeapDescriptor Regs Rdma} {snapshot : Nat -> Bytes} {t : Nat} {g : FetchState}
variable {s s' : Sharing Regs Rdma}

theorem holdsPages_init : HoldsPages d snapshot t FetchState.init s where
  fresh_own _ h := by cases h
  fresh_empty _ h := by cases h
  fresh_quiet _ h := by cases h
  own _ _ _ h := by cases h
  data _ _ _ h := by cases h
  posted _ _ _ h := by cases h
  done _ _ h := by cases h

theorem HoldsPages.keep (h : HoldsPages d snapshot t g s) (hkeeps : KeepsPages t s s') :
    HoldsPages d snapshot t g s' where
  fresh_own page hpage := hkeeps.owner page (h.fresh_own page hpage)
  fresh_empty page hpage := by
    rw [hkeeps.filled page (h.fresh_own page hpage)]
    exact h.fresh_empty page hpage
  fresh_quiet page hpage r hr heq :=
    h.fresh_quiet page hpage r (hkeeps.posted page (h.fresh_own page hpage) r hr heq) heq
  own page pa status hsource := hkeeps.owner page (h.own page pa status hsource)
  data page pa status hsource bytes hbytes := by
    rw [hkeeps.filled page (h.own page pa status hsource)] at hbytes
    exact h.data page pa status hsource bytes hbytes
  posted page pa status hsource r hr heq :=
    h.posted page pa status hsource r
      (hkeeps.posted page (h.own page pa status hsource) r hr heq) heq
  done page pa hsource := by
    rw [hkeeps.filled page (h.own page pa .done hsource)]
    exact h.done page pa hsource

theorem HoldsPages.land (h : HoldsPages d snapshot t g s) {i : Nat} {page : PageId} {pa : Nat}
    (hi : s.posted[i]? = some (page, pa)) (hframe : s.memory.contents pa = snapshot pa) :
    HoldsPages d snapshot t g
      { s with
          posted := s.posted.eraseIdx i
          filled := Function.update s.filled page (some (s.memory.contents pa)) } := by
  have hin : (page, pa) ∈ s.posted := List.mem_of_getElem? hi
  have hsub : forall r, r ∈ s.posted.eraseIdx i -> r ∈ s.posted :=
    fun r hr => List.mem_of_mem_eraseIdx hr
  constructor
  · exact h.fresh_own
  · intro page' hpage
    have hne : page' ≠ page := fun heq => h.fresh_quiet page' hpage (page, pa) hin heq.symm
    exact (Function.update_of_ne hne _ _).trans (h.fresh_empty page' hpage)
  · exact fun page' hpage r hr => h.fresh_quiet page' hpage r (hsub r hr)
  · exact h.own
  · intro page' pa' status hsource bytes hbytes
    by_cases heq : page' = page
    · subst heq
      have hpa : pa = pa' := h.posted page' pa' status hsource (page', pa) hin rfl
      rw [← hpa, ← hframe]
      have hfilled : Function.update s.filled page' (some (s.memory.contents pa)) page' =
          some bytes := hbytes
      rw [Function.update_self] at hfilled
      exact (Option.some.inj hfilled).symm
    · have hold : Function.update s.filled page (some (s.memory.contents pa)) page' =
          some bytes := hbytes
      rw [Function.update_of_ne heq] at hold
      exact h.data page' pa' status hsource bytes hold
  · exact fun page' pa' status hsource r hr => h.posted page' pa' status hsource r (hsub r hr)
  · intro page' pa' hsource
    by_cases heq : page' = page
    · subst heq
      show (Function.update s.filled page' _ page').isSome
      rw [Function.update_self]
      rfl
    · show (Function.update s.filled page _ page').isSome
      rw [Function.update_of_ne heq]
      exact h.done page' pa' hsource

theorem HoldsPages.given (h : HoldsPages d snapshot t g s) {newPage : PageId}
    (hfree : s.owner newPage = none) (hquiet : forall r, r ∈ s.posted -> r.1 ≠ newPage) :
    HoldsPages d snapshot t { g with fresh := some newPage }
      { s with
          owner := Function.update s.owner newPage (some t)
          filled := Function.update s.filled newPage none } := by
  have hne : forall page pa status, g.source page = some (pa, status) -> page ≠ newPage := by
    intro page pa status hsource heq
    have hown := h.own page pa status hsource
    rw [heq, hfree] at hown
    cases hown
  constructor
  · intro page hpage
    cases hpage
    exact Function.update_self _ _ _
  · intro page hpage
    cases hpage
    exact Function.update_self _ _ _
  · intro page hpage
    cases hpage
    exact hquiet
  · intro page pa status hsource
    exact (Function.update_of_ne (hne page pa status hsource) _ _).trans
      (h.own page pa status hsource)
  · intro page pa status hsource bytes hbytes
    apply h.data page pa status hsource bytes
    rw [← hbytes]
    exact (Function.update_of_ne (hne page pa status hsource) _ _).symm
  · exact h.posted
  · intro page pa hsource
    show (Function.update s.filled newPage none page).isSome
    rw [Function.update_of_ne (hne page pa .done hsource)]
    exact h.done page pa hsource

theorem HoldsPages.assign (h : HoldsPages d snapshot t g s) {page : PageId} {pa : Nat}
    {status : ReadStatus} (hfresh : g.fresh = some page) (howner : s'.owner = s.owner)
    (hfilled : forall page', page' ≠ page -> s'.filled page' = s.filled page')
    (hdata : forall bytes, s'.filled page = some bytes -> bytes = snapshot pa)
    (hdone : status = .done -> (s'.filled page).isSome)
    (hposted : forall r, r ∈ s'.posted -> r ∈ s.posted ∨ r = (page, pa)) :
    HoldsPages d snapshot t (g.assign page pa status) s' := by
  constructor
  · exact fun _ hpage => by cases hpage
  · exact fun _ hpage => by cases hpage
  · exact fun _ hpage => by cases hpage
  · intro page' pa' status' hsource
    rw [howner]
    by_cases heq : page' = page
    · rw [heq]
      exact h.fresh_own page hfresh
    · rw [g.assign_source_of_ne pa status heq] at hsource
      exact h.own page' pa' status' hsource
  · intro page' pa' status' hsource bytes hbytes
    by_cases heq : page' = page
    · subst heq
      rw [g.assign_source_self] at hsource
      cases hsource
      exact hdata bytes hbytes
    · rw [g.assign_source_of_ne pa status heq] at hsource
      rw [hfilled page' heq] at hbytes
      exact h.data page' pa' status' hsource bytes hbytes
  · intro page' pa' status' hsource r hr hpage
    by_cases heq : page' = page
    · subst heq
      rw [g.assign_source_self] at hsource
      cases hsource
      cases hposted r hr with
      | inl hold => exact absurd hpage (h.fresh_quiet page' hfresh r hold)
      | inr hnew => rw [hnew]
    · rw [g.assign_source_of_ne pa status heq] at hsource
      cases hposted r hr with
      | inl hold => exact h.posted page' pa' status' hsource r hold hpage
      | inr hnew =>
          rw [hnew] at hpage
          exact absurd hpage.symm heq
  · intro page' pa' hsource
    by_cases heq : page' = page
    · subst heq
      rw [g.assign_source_self] at hsource
      cases hsource
      exact hdone rfl
    · rw [g.assign_source_of_ne pa status heq] at hsource
      rw [hfilled page' heq]
      exact h.done page' pa' hsource

theorem HoldsPages.read (h : HoldsPages d snapshot t g s) {page : PageId} {pa : Nat}
    (hfresh : g.fresh = some page) (hframe : s.memory.contents pa = snapshot pa) :
    HoldsPages d snapshot t (g.assign page pa .done)
      { s with filled := Function.update s.filled page (some (s.memory.contents pa)) } := by
  apply h.assign hfresh
  · rfl
  · exact fun page' hne => Function.update_of_ne hne _ _
  · intro bytes hbytes
    have hsame : Function.update s.filled page (some (s.memory.contents pa)) page = some bytes :=
      hbytes
    rw [Function.update_self, hframe] at hsame
    exact (Option.some.inj hsame).symm
  · intro _
    show (Function.update s.filled page _ page).isSome
    rw [Function.update_self]
    rfl
  · exact fun r hr => Or.inl hr

theorem HoldsPages.post (h : HoldsPages d snapshot t g s) {page : PageId} {pa : Nat}
    (hfresh : g.fresh = some page) {posted : List (PageId × Nat)}
    (hposted : forall r, r ∈ posted -> r ∈ s.posted ∨ r = (page, pa)) :
    HoldsPages d snapshot t (g.assign page pa .posted) { s with posted := posted } := by
  apply h.assign hfresh
  · rfl
  · exact fun _ _ => rfl
  · intro bytes hbytes
    have hsome : s.filled page = some bytes := hbytes
    rw [h.fresh_empty page hfresh] at hsome
    cases hsome
  · exact fun hdone => by cases hdone
  · exact hposted

theorem HoldsPages.discard (h : HoldsPages d snapshot t g s) (page : PageId) :
    HoldsPages d snapshot t (g.discard page)
      { s with owner := Function.update s.owner page none } := by
  have hsource : forall {page' pa status}, (g.discard page).source page' = some (pa, status) ->
      page' ≠ page ∧ g.source page' = some (pa, status) := by
    intro page' pa status hsource
    by_cases heq : page' = page
    · rw [heq, g.discard_source_self] at hsource
      cases hsource
    · rw [g.discard_source_of_ne heq] at hsource
      exact ⟨heq, hsource⟩
  constructor
  · exact fun _ hpage => by cases hpage
  · exact fun _ hpage => by cases hpage
  · exact fun _ hpage => by cases hpage
  · intro page' pa status h'
    rcases hsource h' with ⟨hne, hold⟩
    exact (Function.update_of_ne hne _ _).trans (h.own page' pa status hold)
  · exact fun page' pa status h' => h.data page' pa status (hsource h').2
  · exact fun page' pa status h' => h.posted page' pa status (hsource h').2
  · exact fun page' pa h' => h.done page' pa (hsource h').2

end Pages

/-!
## One call of a fetch
-/

section Calls

variable {d : HeapDescriptor Regs Rdma} {snapshot : Nat -> Bytes} {t : Nat} {g : FetchState}
variable {s s' : Sharing Regs Rdma} {env : Answers Regs Rdma} {o : KernelOp Regs Rdma}
variable {r : o.Res} {now : List Fetched}

theorem serve_moves (hserve : s.serve t env o = some (r, s', now))
    (hmay : (fetchProtocol d).may g o) (h : HoldsPages d snapshot t g s)
    (hframes : forall pa, Frame d pa -> s.memory.contents pa = snapshot pa)
    (hquiet : o = .allocPage -> forall r, r ∈ s.posted -> r.1 ≠ (show PageId from env .allocPage))
    (hlanded : forall m addr page, o = .vmInsertPage m addr page -> (s.filled page).isSome) :
    (exists g', (fetchProtocol d).next g o r g' ∧ HoldsPages d snapshot t g' s') ∧
      forall e, e ∈ now -> e.Consistent d snapshot := by
  cases o with
  | allocPage =>
      simp only [Sharing.serve] at hserve
      split at hserve
      · next hfree =>
          cases hserve
          refine ⟨⟨_, ⟨?_, rfl⟩, h.given hfree (hquiet rfl)⟩, fun e hin => by cases hin⟩
          cases hsource : g.source (env .allocPage) with
          | none => rfl
          | some source =>
              have hown := h.own _ source.1 source.2 hsource
              rw [show s.owner (env .allocPage) = none from hfree] at hown
              cases hown
      · cases hserve
  | freePage page =>
      cases hserve
      exact ⟨⟨_, rfl, h.discard page⟩, fun e hin => by cases hin⟩
  | remoteRead page pa info =>
      rcases hmay with ⟨hfresh, hframe⟩
      simp only [Sharing.serve] at hserve
      cases hok : env (.remoteRead page pa info) with
      | false =>
          rw [hok] at hserve
          cases hserve
          exact ⟨⟨g, rfl, h⟩, fun e hin => by cases hin⟩
      | true =>
          rw [hok] at hserve
          cases hserve
          refine ⟨⟨g.assign page pa .done, rfl, ?_⟩, fun e hin => by cases hin⟩
          rw [if_pos rfl]
          exact h.read hfresh (hframes pa hframe)
  | postPageRead page pa info signaled =>
      rcases hmay with ⟨hfresh, hframe⟩
      simp only [Sharing.serve] at hserve
      cases hok : env (.postPageRead page pa info signaled) with
      | false =>
          rw [hok] at hserve
          cases hserve
          refine ⟨⟨g.assign page pa .posted, rfl, ?_⟩, fun e hin => by cases hin⟩
          rw [if_neg Bool.false_ne_true]
          exact h.post hfresh fun r hr => Or.inl hr
      | true =>
          rw [hok] at hserve
          cases hserve
          refine ⟨⟨g.assign page pa .posted, rfl, ?_⟩, fun e hin => by cases hin⟩
          rw [if_pos rfl]
          refine h.post hfresh fun r hr => ?_
          cases List.mem_append.mp hr with
          | inl hold => exact Or.inl hold
          | inr hnew => exact Or.inr (List.mem_singleton.mp hnew)
  | blockOnPageReads =>
      cases hserve
      exact ⟨⟨g, rfl, h⟩, fun e hin => by cases hin⟩
  | vmInsertPage m addr page =>
      cases hserve
      refine ⟨⟨g, rfl, h⟩, fun e hin => ?_⟩
      have hin : e ∈ [{ va := addr, data := s.filled page }] := by
        split at hin
        · exact hin
        · cases hin
      rw [List.mem_singleton.mp hin]
      rcases hmay with ⟨pa, status, hlookup, hsource⟩
      rcases Option.isSome_iff_exists.mp (hlanded m addr page rfl) with ⟨bytes, hbytes⟩
      refine ⟨pa, hlookup, ?_⟩
      rw [← h.data page pa status hsource bytes hbytes]
      exact hbytes
  | accessInfoNew machineInfo =>
      cases hserve
      exact ⟨⟨g, rfl, h⟩, fun e hin => by cases hin⟩
  | getDcQpKey =>
      cases hserve
      exact ⟨⟨g, rfl, h⟩, fun e hin => by cases hin⟩
  | _ => exact hmay.elim

structure ServeKeeps (d : HeapDescriptor Regs Rdma) (t : Nat) (s s' : Sharing Regs Rdma) :
    Prop where
  memory : s'.memory = s.memory
  fetches : s'.fetches = s.fetches
  posted : forall r, r ∈ s'.posted -> r ∈ s.posted ∨ Frame d r.2
  others : forall other, other ≠ t -> KeepsPages other s s'

theorem serveKeeps_refl : ServeKeeps d t s s where
  memory := rfl
  fetches := rfl
  posted _ hr := Or.inl hr
  others _ _ := ⟨fun _ h => h, fun _ _ => rfl, fun _ _ _ hr _ => hr⟩

theorem serve_keeps (hserve : s.serve t env o = some (r, s', now))
    (hmay : (fetchProtocol d).may g o) (h : HoldsPages d snapshot t g s) :
    ServeKeeps d t s s' := by
  -- Pages of other fetches are not the page that this call is about.
  have hne : forall {page other}, s.owner page = some t -> other ≠ t ->
      forall {page'}, s.owner page' = some other -> page' ≠ page := by
    intro page other hown hother page' hown' heq
    rw [heq, hown] at hown'
    exact hother (Option.some.inj hown').symm
  cases o with
  | allocPage =>
      simp only [Sharing.serve] at hserve
      split at hserve
      · next hfree =>
          cases hserve
          refine ⟨rfl, rfl, fun _ hr => Or.inl hr, fun other hother => ?_⟩
          have hne' : forall page, s.owner page = some other ->
              page ≠ (show PageId from env .allocPage) := by
            intro page hown heq
            rw [heq, show s.owner (env .allocPage) = none from hfree] at hown
            cases hown
          exact ⟨fun page hown => (Function.update_of_ne (hne' page hown) _ _).trans hown,
            fun page hown => Function.update_of_ne (hne' page hown) _ _, fun _ _ _ hr _ => hr⟩
      · cases hserve
  | freePage page =>
      cases hserve
      have hown : s.owner page = some t := by
        cases hmay with
        | inl hfresh => exact h.fresh_own page hfresh
        | inr hsource =>
            rcases Option.isSome_iff_exists.mp hsource with ⟨source, hsource⟩
            exact h.own page source.1 source.2 hsource
      refine ⟨rfl, rfl, fun _ hr => Or.inl hr, fun other hother => ?_⟩
      exact ⟨fun page' hown' => (Function.update_of_ne (hne hown hother hown') _ _).trans hown',
        fun _ _ => rfl, fun _ _ _ hr _ => hr⟩
  | remoteRead page pa info =>
      have hown := h.fresh_own page hmay.1
      simp only [Sharing.serve] at hserve
      cases hok : env (.remoteRead page pa info) with
      | false =>
          rw [hok] at hserve
          cases hserve
          exact serveKeeps_refl
      | true =>
          rw [hok] at hserve
          cases hserve
          refine ⟨rfl, rfl, fun _ hr => Or.inl hr, fun other hother => ?_⟩
          exact ⟨fun _ hown' => hown',
            fun page' hown' => Function.update_of_ne (hne hown hother hown') _ _,
            fun _ _ _ hr _ => hr⟩
  | postPageRead page pa info signaled =>
      have hown := h.fresh_own page hmay.1
      simp only [Sharing.serve] at hserve
      cases hok : env (.postPageRead page pa info signaled) with
      | false =>
          rw [hok] at hserve
          cases hserve
          exact serveKeeps_refl
      | true =>
          rw [hok] at hserve
          cases hserve
          constructor
          · rfl
          · rfl
          · intro r hr
            cases List.mem_append.mp hr with
            | inl hold => exact Or.inl hold
            | inr hnew =>
                rw [List.mem_singleton.mp hnew]
                exact Or.inr hmay.2
          · intro other hother
            refine ⟨fun _ hown' => hown', fun _ _ => rfl, fun page' hown' r hr hpage => ?_⟩
            cases List.mem_append.mp hr with
            | inl hold => exact hold
            | inr hnew =>
                rw [List.mem_singleton.mp hnew] at hpage
                exact absurd hpage.symm (hne hown hother hown')
  | blockOnPageReads =>
      cases hserve
      exact serveKeeps_refl
  | vmInsertPage m addr page =>
      cases hserve
      exact serveKeeps_refl
  | accessInfoNew machineInfo =>
      cases hserve
      exact serveKeeps_refl
  | getDcQpKey =>
      cases hserve
      exact serveKeeps_refl
  | _ => exact hmay.elim

end Calls
/-!
## One step of the system
-/

structure SnapshotInv (d : HeapDescriptor Regs Rdma) (snapshot : Nat -> Bytes)
    (s : Sharing Regs Rdma) (past : List Fetched) : Prop where
  frames : forall pa, Frame d pa -> s.memory.contents pa = snapshot pa
  posted : forall r, r ∈ s.posted -> Frame d r.2
  fetch : forall t fetch p, s.fetches t = some (fetch, p) ->
    p.Follows (fetchProtocol d) (FetchEnds d fetch)
      (fun g s => HoldsPages d snapshot t g s) s
  fetched : forall e, e ∈ past -> e.Consistent d snapshot

section Steps

variable {lib : KernelLib Regs Rdma} {heap : HeapDataStruct Regs Rdma}
variable {snapshot : Nat -> Bytes} {frames : List Nat}
variable {s : Sharing Regs Rdma} {past now : List Fetched}

theorem consistent_append {d : HeapDescriptor Regs Rdma}
    (h : forall e, e ∈ past -> e.Consistent d snapshot)
    (hnow : forall e, e ∈ now -> e.Consistent d snapshot) :
    forall e, e ∈ past ++ now -> e.Consistent d snapshot := by
  intro e hin
  cases List.mem_append.mp hin with
  | inl hpast => exact h e hpast
  | inr hin => exact hnow e hin

theorem keepsPages_setFetch (t other : Nat)
    (fetch : Option (Fetch Rdma × KProg Regs Rdma (Option PageId))) :
    KeepsPages other s (s.setFetch t fetch) :=
  ⟨fun _ h => h, fun _ _ => rfl, fun _ _ _ hr _ => hr⟩

theorem SnapshotInv.producer (h : SnapshotInv heap.descriptor snapshot s past)
    (hframes : forall pa, Frame heap.descriptor pa -> pa ∈ frames) {a : ProducerAct}
    {memory : ProducerMemory} (hcalm : Undisturbed frames s (.producer a))
    (hstep : s.memory.step a = some memory) :
    SnapshotInv heap.descriptor snapshot { s with memory := memory } (past ++ []) := by
  rw [List.append_nil]
  simp only [Undisturbed, hstep] at hcalm
  constructor
  · intro pa hpa
    exact (hcalm pa (hframes pa hpa)).trans (h.frames pa hpa)
  · exact h.posted
  · intro t fetch p hp
    refine (h.fetch t fetch p hp).interfere fun g hg => hg.keep ?_
    exact ⟨fun _ hown => hown, fun _ _ => rfl, fun _ _ _ hr _ => hr⟩
  · exact h.fetched

theorem SnapshotInv.start (h : SnapshotInv heap.descriptor snapshot s past) (t : Nat)
    (fetch : Fetch Rdma) :
    SnapshotInv heap.descriptor snapshot
      (s.setFetch t (some (fetch, fetch.program lib heap))) (past ++ []) := by
  rw [List.append_nil]
  refine ⟨h.frames, h.posted, ?_, h.fetched⟩
  intro t' fetch' p hp
  by_cases ht : t' = t
  · subst ht
    simp only [Sharing.setFetch, Function.update_self] at hp
    cases hp
    exact ⟨FetchState.init, program_conforms lib heap fetch _, holdsPages_init⟩
  · simp only [Sharing.setFetch, Function.update_of_ne ht] at hp
    exact (h.fetch t' fetch' p hp).interfere fun g hg => hg.keep (keepsPages_setFetch t t' _)

theorem SnapshotInv.land (h : SnapshotInv heap.descriptor snapshot s past) {i : Nat}
    {page : PageId} {pa : Nat} (hi : s.posted[i]? = some (page, pa)) :
    SnapshotInv heap.descriptor snapshot
      { s with
          posted := s.posted.eraseIdx i
          filled := Function.update s.filled page (some (s.memory.contents pa)) }
      (past ++ []) := by
  rw [List.append_nil]
  have hframe := h.frames pa (h.posted (page, pa) (List.mem_of_getElem? hi))
  refine ⟨h.frames, fun r hr => h.posted r (List.mem_of_mem_eraseIdx hr), ?_, h.fetched⟩
  intro t fetch p hp
  exact (h.fetch t fetch p hp).interfere fun g hg => hg.land hi hframe

theorem SnapshotInv.ended (h : SnapshotInv heap.descriptor snapshot s past) {t : Nat}
    {fetch : Fetch Rdma} {page : Option PageId} (hret : s.fetches t = some (fetch, .ret page)) :
    SnapshotInv heap.descriptor snapshot (s.setFetch t none)
      (past ++ s.installed fetch page) := by
  refine ⟨h.frames, h.posted, ?_, consistent_append h.fetched ?_⟩
  · intro t' fetch' p hp
    by_cases ht : t' = t
    · subst ht
      simp only [Sharing.setFetch, Function.update_self] at hp
      cases hp
    · simp only [Sharing.setFetch, Function.update_of_ne ht] at hp
      exact (h.fetch t' fetch' p hp).interfere fun g hg => hg.keep (keepsPages_setFetch t t' _)
  · intro e hin
    cases fetch with
    | eager m info => cases hin
    | fault va =>
        cases page with
        | none => cases hin
        | some page =>
            rw [List.mem_singleton.mp hin]
            rcases h.fetch t _ _ hret with ⟨g, hends, hg⟩
            rcases hends va page rfl rfl with ⟨pa, hlookup, hsource⟩
            rcases Option.isSome_iff_exists.mp (hg.done page pa hsource) with ⟨bytes, hbytes⟩
            refine ⟨pa, hlookup, ?_⟩
            rw [← hg.data page pa .done hsource bytes hbytes]
            exact hbytes

theorem SnapshotInv.call (h : SnapshotInv heap.descriptor snapshot s past) {t : Nat}
    {env : Answers Regs Rdma} {fetch : Fetch Rdma} {o : KernelOp Regs Rdma} {r : o.Res}
    {k : o.Res -> KProg Regs Rdma (Option PageId)} {s' : Sharing Regs Rdma}
    (hcall : s.fetches t = some (fetch, .call o k))
    (hcalm : Undisturbed frames s (.resume t env))
    (hserve : s.serve t env o = some (r, s', now)) :
    SnapshotInv heap.descriptor snapshot (s'.setFetch t (some (fetch, k r))) (past ++ now) := by
  rcases h.fetch t _ _ hcall with ⟨g, hconf, hg⟩
  have hkeeps := serve_keeps hserve hconf.1 hg
  have hmoves := serve_moves hserve hconf.1 hg h.frames
    (by
      intro ho
      subst ho
      simpa only [Undisturbed, hcall] using hcalm)
    (by
      intro m addr page ho
      subst ho
      simpa only [Undisturbed, hcall] using hcalm)
  rcases hmoves with ⟨⟨g', hnext, hg'⟩, hnow⟩
  constructor
  · intro pa hpa
    show s'.memory.contents pa = snapshot pa
    rw [hkeeps.memory]
    exact h.frames pa hpa
  · intro r hr
    cases hkeeps.posted r hr with
    | inl hold => exact h.posted r hold
    | inr hnew => exact hnew
  · intro t' fetch' p hp
    by_cases ht : t' = t
    · subst ht
      simp only [Sharing.setFetch, Function.update_self] at hp
      cases hp
      exact ⟨g', hconf.2 r g' hnext, hg'.keep (keepsPages_setFetch t' t' _)⟩
    · simp only [Sharing.setFetch, Function.update_of_ne ht, hkeeps.fetches] at hp
      refine (h.fetch t' fetch' p hp).interfere fun g hg => ?_
      exact (hg.keep (hkeeps.others t' ht)).keep (keepsPages_setFetch t t' _)
  · exact consistent_append h.fetched hnow

theorem SnapshotInv.step (h : SnapshotInv heap.descriptor snapshot s past)
    (hframes : forall pa, Frame heap.descriptor pa -> pa ∈ frames) {a : SharingAct Regs Rdma}
    {s' : Sharing Regs Rdma} (hcalm : Undisturbed frames s a)
    (hstep : s.step lib heap a = some (s', now)) :
    SnapshotInv heap.descriptor snapshot s' (past ++ now) := by
  cases a with
  | producer a =>
      rcases Option.map_eq_some_iff.mp hstep with ⟨memory, hmemory, hpair⟩
      cases hpair
      exact h.producer hframes hcalm hmemory
  | start t fetch =>
      simp only [Sharing.step] at hstep
      split at hstep
      · cases hstep
        exact h.start t fetch
      · cases hstep
  | resume t env =>
      simp only [Sharing.step] at hstep
      split at hstep
      · next fetch o k hcall =>
          rcases Option.map_eq_some_iff.mp hstep with ⟨⟨r, s'', now'⟩, hserve, hpair⟩
          cases hpair
          exact h.call hcall hcalm hserve
      · next fetch page hret =>
          cases hstep
          exact h.ended hret
      · cases hstep
  | land i =>
      simp only [Sharing.step] at hstep
      split at hstep
      · cases hstep
      · next page pa hi =>
          cases hstep
          exact h.land hi

end Steps

/-!
## Runs
-/

theorem frame_recorded {d : ParentDescriptor Regs Rdma} {pa : Nat}
    (h : Frame d.toHeapDescriptor pa) : pa ∈ recordedFrames d := by
  rcases h with ⟨va, hlookup⟩
  have hmem : (va, pa) ∈ mappings (d.vma.zip d.pageTable) := by
    cases mem_of_lookup_insertAll hlookup with
    | inl hmem => exact hmem
    | inr hempty =>
        rw [Finmap.lookup_empty] at hempty
        cases hempty
  rcases List.mem_flatMap.mp hmem with ⟨p, hp, hentry⟩
  rcases List.mem_map.mp hentry with ⟨e, he, heq⟩
  cases heq
  exact List.mem_flatMap.mpr ⟨p.2, (List.of_mem_zip hp).2, List.mem_map.mpr ⟨e, he, rfl⟩⟩

/-- The state when the heap has just been captured. -/
def Sharing.atCapture (task : Producer.Task Regs) (contents : Nat -> Bytes) : Sharing Regs Rdma :=
  Sharing.init { frameOf := task.mm.pte, contents := contents }

/-- In every run in which the recorded frames are left alone and the pages of a batch
have arrived when they are inserted, a page that the consumer fetches has the data
that the page of the producer had at the capture. -/
theorem fetched_snapshot (lib : KernelLib Regs Rdma) (task : Producer.Task Regs)
    (rdmaMeta : Rdma) (heapMeta : HeapMeta) (contents : Nat -> Bytes)
    (heap : HeapDataStruct Regs Rdma) (haligned : PageAligned task.mm.vmas)
    (hfit : OffsetsFit task heapMeta)
    (hpulled : HeapDescriptor.deserialize lib
      ((ShadowHeap.new task rdmaMeta heapMeta).descriptor.encode lib) = .ok heap.descriptor)
    {acts : List (SharingAct Regs Rdma)} {s : Sharing Regs Rdma} {past : List Fetched}
    (hmeets : RunMeets (Sharing.step lib heap)
      (Undisturbed (recordedFrames (ShadowHeap.new task rdmaMeta heapMeta).descriptor))
      (Sharing.atCapture task contents) acts)
    (hrun : runFrom (Sharing.step lib heap) (Sharing.atCapture task contents) acts = some (s, past)) :
    forall e, e ∈ past ->
      task.mm.pte e.va > 0 ∧ e.data = some (contents (task.mm.pte e.va).toNat) := by
  have hdecode := deserialize_shadowHeap lib task rdmaMeta heapMeta []
  rw [List.append_nil, hpulled] at hdecode
  have hdescriptor : heap.descriptor =
      (ShadowHeap.new task rdmaMeta heapMeta).descriptor.toHeapDescriptor := by
    injection hdecode
  have hframes : forall pa, Frame heap.descriptor pa ->
      pa ∈ recordedFrames (ShadowHeap.new task rdmaMeta heapMeta).descriptor := by
    intro pa hpa
    rw [hdescriptor] at hpa
    exact frame_recorded hpa
  have hinit : SnapshotInv heap.descriptor contents (Sharing.atCapture task contents) [] :=
    { frames := fun _ _ => rfl
      posted := fun _ hr => by cases hr
      fetch := fun _ _ _ hp => by cases hp
      fetched := fun _ hin => by cases hin }
  have hstep : forall (s : Sharing Regs Rdma) (past : List Fetched) (a : SharingAct Regs Rdma)
      (s' : Sharing Regs Rdma) (now : List Fetched),
      SnapshotInv heap.descriptor contents s past ->
        Undisturbed (recordedFrames (ShadowHeap.new task rdmaMeta heapMeta).descriptor) s a ->
          s.step lib heap a = some (s', now) ->
            SnapshotInv heap.descriptor contents s' (past ++ now) :=
    fun _ _ _ _ _ h hcalm hs => h.step hframes hcalm hs
  have hinv := runFrom_invariant hstep hinit hmeets hrun
  intro e he
  rcases hinv.fetched e he with ⟨pa, hlookup, hdata⟩
  rw [hdescriptor, lookup_shadowHeap] at hlookup
  have hsub := heapRun_sublist heapMeta.startVirtAddr task.mm.vmas
  rcases page_of_runLookup (fun vma hvma => haligned vma (hsub.subset hvma)) hfit hlookup
    with ⟨hpresent, rfl⟩
  exact ⟨hpresent, hdata⟩

def smallHeap : HeapDataStruct UInt64 UInt64 where
  id := 1
  descriptor :=
    (ShadowHeap.new smallTask 0 { startVirtAddr := 4096 }).descriptor.toHeapDescriptor
  accessInfo := { machineInfo := 0 }

def smallContents (frame : Nat) : Bytes :=
  if frame = 28672 then [1] else []

def fetchStep (t : Nat) : SharingAct UInt64 UInt64 :=
  .resume t (obliging none [])

/-- The producer writes to a page of its own that was not captured, and the consumer
fetches the captured page at a fault. -/
def calmActs : List (SharingAct UInt64 UInt64) :=
  [.producer (.map 8192 32768), .producer (.write 8192 [2]), .start 0 (.fault 4096),
    fetchStep 0, fetchStep 0, fetchStep 0, fetchStep 0]

def writtenActs : List (SharingAct UInt64 UInt64) :=
  [.producer (.write 4096 [2]), .start 0 (.fault 4096), fetchStep 0, fetchStep 0, fetchStep 0,
    fetchStep 0]

theorem deserialize_smallHeap :
    HeapDescriptor.deserialize plainLib
        ((ShadowHeap.new smallTask 0 { startVirtAddr := 4096 }).descriptor.encode plainLib) =
      .ok smallHeap.descriptor := by
  have hdecode := deserialize_shadowHeap plainLib smallTask (0 : UInt64)
    { startVirtAddr := 4096 } []
  rwa [List.append_nil] at hdecode

theorem fetched_snapshot_calm :
    exists (s : Sharing UInt64 UInt64) (past : List Fetched),
      runFrom (Sharing.step plainLib smallHeap) (Sharing.atCapture smallTask smallContents) calmActs =
          some (s, past) ∧
        past = [{ va := 4096, data := some [1] }] ∧
          forall e, e ∈ past -> smallTask.mm.pte e.va > 0 ∧
            e.data = some (smallContents (smallTask.mm.pte e.va).toNat) := by
  have hobserved :
      (runFrom (Sharing.step plainLib smallHeap) (Sharing.atCapture smallTask smallContents) calmActs).map
        (fun r => r.2) = some [{ va := 4096, data := some [1] }] := by
    decide +kernel
  rcases Option.map_eq_some_iff.mp hobserved with ⟨⟨s, past⟩, hrun, hpast⟩
  have hmeets : RunMeets (Sharing.step plainLib smallHeap)
      (Undisturbed (recordedFrames
        (ShadowHeap.new smallTask (0 : UInt64) { startVirtAddr := 4096 }).descriptor))
      (Sharing.atCapture smallTask smallContents) calmActs := by
    decide +kernel
  have haligned : PageAligned smallTask.mm.vmas := by
    unfold PageAligned pageSize
    decide
  have hfit : OffsetsFit smallTask { startVirtAddr := 4096 } := by
    intro vma hvma va _ hcovers _
    have hsmall : vma = { vmStart := 4096, vmEnd := 12288, vmFlags := 0, vmFile := 0 } :=
      List.mem_singleton.mp hvma
    subst hsmall
    have hend : va < 12288 := hcovers.2
    omega
  exact ⟨s, past, hrun, hpast,
    fetched_snapshot plainLib smallTask 0 { startVirtAddr := 4096 } smallContents smallHeap
      haligned hfit deserialize_smallHeap hmeets hrun⟩

theorem not_fetched_snapshot_written :
    ¬ forall acts (s : Sharing UInt64 UInt64) (past : List Fetched),
      runFrom (Sharing.step plainLib smallHeap) (Sharing.atCapture smallTask smallContents) acts =
          some (s, past) ->
        forall e, e ∈ past -> e.data = some (smallContents (smallTask.mm.pte e.va).toNat) := by
  intro h
  have hobserved :
      (runFrom (Sharing.step plainLib smallHeap) (Sharing.atCapture smallTask smallContents) writtenActs).map
        (fun r => r.2) = some [{ va := 4096, data := some [2] }] := by
    decide +kernel
  rcases Option.map_eq_some_iff.mp hobserved with ⟨⟨s, past⟩, hrun, hpast⟩
  have hdata := h writtenActs s past hrun { va := 4096, data := some [2] } (by
    rw [show past = _ from hpast]
    exact List.mem_singleton.mpr rfl)
  exact absurd hdata (by decide)

end Kernel
end Dmerge
