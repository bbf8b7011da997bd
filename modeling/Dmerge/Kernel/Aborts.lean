import Dmerge.Foundation.Executions
import Dmerge.Kernel.Commands

/-!
# Panics and the lock of a CPU

The code unwraps some of the answers that it gets, and gives up at a few
others.  The monitor of this file watches an entry of the module: where it is
with the lock of its CPU, and whether it got an answer that it does not
survive.  Every panic comes from such an answer, and every such answer is
followed by a panic.
-/

namespace Dmerge
namespace Kernel

open Foundation Memory Descriptors Producer Prog

variable {Regs Rdma : Type} {alpha beta : Type}

/-!
## Answers that abort
-/

def overflows (lib : KernelLib Regs Rdma) (descBuf : Bytes) : Bool :=
  match HeapDescriptor.deserialize lib descBuf with
  | .error .abort => true
  | _ => false

/-- The answers that the code does not survive.  The first `AccessInfo::new` of a
pull is checked; the one of the eager mapping is unwrapped.  The eager mapping of a
VMA is not survived when its addresses cannot be stepped through. -/
def aborts (lib : KernelLib Regs Rdma) (infoTaken : Bool) :
    (o : KernelOp Regs Rdma) -> o.Res -> Bool
  | .getCallingCpuId, cpu => decide (lib.maxCoreCnt ≤ cpu)
  | .getGlobalCaller _, none => true
  | .registerRecvBuf, none => true
  | .getSs _, none => true
  | .getDcQpKey, none => true
  | .blockOnRead _, .elapsed => true
  | .blockOnRead _, .done descBuf => overflows lib descBuf
  | .accessInfoNew _, none => infoTaken
  | .setMixedMap m, _ => (fetchAddrs lib m).isNone
  | .allocOneId, none => true
  | .newFromDcTargetPool, none => true
  | _, _ => false

theorem aborts_setMixedMap (lib : KernelLib Regs Rdma) (infoTaken : Bool) (m : VMADescriptor)
    (r : Unit) :
    aborts lib infoTaken (.setMixedMap m : KernelOp Regs Rdma) r = (fetchAddrs lib m).isNone :=
  rfl

def takesInfo : (o : KernelOp Regs Rdma) -> o.Res -> Bool
  | .accessInfoNew _, some _ => true
  | _, _ => false

/-- No answer of the trace aborts. -/
def NoAbort (lib : KernelLib Regs Rdma) :
    Bool -> List (Exchange (kernelSig Regs Rdma)) -> Prop
  | _, [] => True
  | infoTaken, e :: rest =>
      aborts lib infoTaken e.op e.res = false ∧
        NoAbort lib (infoTaken || takesInfo e.op e.res) rest

instance NoAbort.decidable (lib : KernelLib Regs Rdma) :
    forall infoTaken trace, Decidable (NoAbort lib infoTaken trace)
  | _, [] => isTrue True.intro
  | infoTaken, e :: rest =>
      have : Decidable (NoAbort lib (infoTaken || takesInfo e.op e.res) rest) :=
        NoAbort.decidable lib _ rest
      inferInstanceAs (Decidable (_ ∧ _))

/-!
## The monitor
-/

inductive LockPhase where
  | free
  | held (cpu : CpuId)
  | returned (cpu : CpuId)
  deriving DecidableEq, Repr

structure CallState where
  /-- The CPU and the machine that the entry was told. -/
  cpu : Option CpuId
  machine : Option UInt64
  lock : LockPhase
  /-- A request is out, and no answer to it is in. -/
  asked : Bool
  infoTaken : Bool
  aborted : Bool
  deriving DecidableEq, Repr

namespace CallState

def outside (machine : Option UInt64) : CallState where
  cpu := none
  machine := machine
  lock := .free
  asked := false
  infoTaken := false
  aborted := false

def start : CallState := outside none

def inside (cpu : CpuId) (machine : Option UInt64) (infoTaken : Bool) : CallState where
  cpu := some cpu
  machine := machine
  lock := .held cpu
  asked := false
  infoTaken := infoTaken
  aborted := false

def Holding (g : CallState) : Prop := exists cpu, g.lock = .held cpu

def Trailing : KernelOp Regs Rdma -> Prop
  | .globalLocks | .setAlloc _ => True
  | _ => False

/-- The calls that an entry may make: those on the RPC caller and on the queue pairs
with the lock, and those on the pools without.  A request names the machine and
the CPU whose lock is held. -/
def may (g : CallState) (o : KernelOp Regs Rdma) : Prop :=
  (g.aborted = false ∨ Trailing o) ∧
    match o with
    | .lock cpu => g.lock = .free ∧ g.cpu = some cpu
    | .unlock cpu => g.lock = .held cpu ∧ g.asked = false
    | .syncCall _ mySession _ _ =>
        g.lock = .held mySession.cpu ∧ g.machine = some mySession.machine ∧ g.asked = false
    | .blockOnCaller _ => g.Holding ∧ g.asked = true
    | .getCallingCpuId | .allocOneId | .newFromDcTargetPool => g.lock = .free
    | .getGlobalCaller _ | .registerRecvBuf | .getSs _ | .getDcQpKey | .blockOnRead _
    | .accessInfoNew _ | .setMixedMap _ => g.Holding
    | _ => True

def proceed (g : CallState) : (o : KernelOp Regs Rdma) -> o.Res -> CallState
  | .getCallingCpuId, cpu => { g with cpu := some cpu }
  | .getMacId, machine => { g with machine := some machine }
  | .syncCall _ _ _ _, sent => { g with asked := sent }
  | .blockOnCaller _, _ => { g with asked := false }
  | .lock cpu, _ => { g with lock := .held cpu }
  | .unlock cpu, _ => { g with lock := .returned cpu }
  | .accessInfoNew _, some _ => { g with infoTaken := true }
  | _, _ => g

def after (lib : KernelLib Regs Rdma) (g : CallState) (o : KernelOp Regs Rdma) (r : o.Res) :
    CallState :=
  if aborts lib g.infoTaken o r = true then { g with aborted := true } else g.proceed o r

end CallState

abbrev callMonitor (lib : KernelLib Regs Rdma) : Monitor (kernelSig Regs Rdma) where
  State := CallState
  may := CallState.may
  after := CallState.after lib

/-- A program that panics exactly after an answer that aborts, and whose returns meet
a condition. -/
def Ends (post : CallState -> alpha -> Prop) (g : CallState) : Outcome alpha -> Prop
  | .returned a => g.aborted = false ∧ post g a
  | .panicked _ => g.aborted = true

def Tracked (lib : KernelLib Regs Rdma) (p : KProg Regs Rdma alpha) (g : CallState)
    (post : CallState -> alpha -> Prop) : Prop :=
  p.Conforms (callMonitor lib).protocol (Ends post) g

section Tracking

variable {lib : KernelLib Regs Rdma} {g : CallState}
variable {post : CallState -> alpha -> Prop} {post' : CallState -> beta -> Prop}

theorem Tracked.bind {p : KProg Regs Rdma alpha} {f : alpha -> KProg Regs Rdma beta}
    (hp : Tracked lib p g post)
    (hf : forall g a, g.aborted = false -> post g a -> Tracked lib (f a) g post') :
    Tracked lib (p >>= f) g post' := by
  apply Conforms.bind hp
  · intro g a h
    exact hf g a h.1 h.2
  · intro g msg h
    exact h

theorem tracked_ret {a : alpha} (hclean : g.aborted = false) (hpost : post g a) :
    Tracked lib (.ret a) g post :=
  ⟨hclean, hpost⟩

def KernelOp.Plain : KernelOp Regs Rdma -> Prop
  | .getCallingCpuId | .getMacId | .syncCall _ _ _ _ | .blockOnCaller _
  | .lock _ | .unlock _ | .getGlobalCaller _ | .registerRecvBuf | .getSs _ | .getDcQpKey
  | .blockOnRead _ | .accessInfoNew _ | .setMixedMap _ | .allocOneId
  | .newFromDcTargetPool => False
  | _ => True

theorem tracked_plain {o : KernelOp Regs Rdma} {k : o.Res -> KProg Regs Rdma alpha}
    (ho : o.Plain) (hclean : g.aborted = false)
    (hk : forall r, Tracked lib (k r) g post) : Tracked lib (.call o k) g post := by
  constructor
  · refine ⟨Or.inl hclean, ?_⟩
    cases o <;> first | exact True.intro | exact ho.elim
  · intro r g' hnext
    have hsame : (callMonitor lib).after g o r = g := by
      cases o <;> first | rfl | exact ho.elim
    rw [hnext, hsame]
    exact hk r

theorem tracked_step {o : KernelOp Regs Rdma} {k : o.Res -> KProg Regs Rdma alpha}
    (hmay : g.may o)
    (habort : forall r, aborts lib g.infoTaken o r = true ->
      Tracked lib (k r) { g with aborted := true } post)
    (hk : forall r, aborts lib g.infoTaken o r = false ->
      Tracked lib (k r) (g.proceed o r) post) :
    Tracked lib (.call o k) g post := by
  refine ⟨hmay, fun r g' hnext => ?_⟩
  have hnext : g' = CallState.after lib g o r := hnext
  rw [hnext, CallState.after]
  cases habr : aborts lib g.infoTaken o r with
  | true =>
      rw [if_pos rfl]
      exact habort r habr
  | false =>
      rw [if_neg (by decide)]
      exact hk r habr

theorem tracked_call {o : KernelOp Regs Rdma} {k : o.Res -> KProg Regs Rdma alpha}
    (hmay : g.may o)
    (habort : forall r, aborts lib g.infoTaken o r = true -> exists msg, k r = .panic msg)
    (hk : forall r, aborts lib g.infoTaken o r = false ->
      Tracked lib (k r) (g.proceed o r) post) :
    Tracked lib (.call o k) g post := by
  apply tracked_step hmay _ hk
  intro r habr
  rcases habort r habr with ⟨msg, hpanic⟩
  rw [hpanic]
  exact rfl

theorem tracked_unwrap {gamma : Type} (o : KernelOp Regs Rdma) (val : o.Res -> Option gamma)
    {msg : String} {k : gamma -> KProg Regs Rdma alpha} (hmay : g.may o)
    (haborts : forall r, aborts lib g.infoTaken o r = (val r).isNone)
    (hkeeps : forall r, g.proceed o r = g) (hk : forall x, Tracked lib (k x) g post) :
    Tracked lib (.call o fun r => Prog.expect msg (val r) >>= k) g post := by
  apply tracked_call hmay
  · intro r habr
    rw [haborts, Option.isNone_iff_eq_none] at habr
    exact ⟨msg, by rw [habr]; rfl⟩
  · intro r habr
    rw [haborts] at habr
    rw [hkeeps]
    cases hval : val r with
    | none =>
        rw [hval] at habr
        cases habr
    | some x => exact hk x

theorem after_trailing {o : KernelOp Regs Rdma} (ho : CallState.Trailing o) (r : o.Res) :
    CallState.after lib g o r = g := by
  cases o <;> first | rfl | exact ho.elim

theorem tracked_trailing {o : KernelOp Regs Rdma} {k : o.Res -> KProg Regs Rdma alpha}
    (ho : CallState.Trailing o) (hk : forall r, Tracked lib (k r) g post) :
    Tracked lib (.call o k) g post := by
  constructor
  · refine ⟨Or.inr ho, ?_⟩
    cases o <;> first | exact True.intro | exact ho.elim
  · intro r g' hnext
    have hsame : (callMonitor lib).after g o r = g := after_trailing ho r
    rw [hnext, hsame]
    exact hk r

theorem tracked_lock {cpu : CpuId} {k : Unit -> KProg Regs Rdma alpha}
    (hclean : g.aborted = false) (hfree : g.lock = .free) (hcpu : g.cpu = some cpu)
    (hk : Tracked lib (k ()) { g with lock := .held cpu } post) :
    Tracked lib (.call (.lock cpu) k) g post := by
  apply tracked_call
  · exact ⟨Or.inl hclean, hfree, hcpu⟩
  · intro r habr
    cases habr
  · intro r _
    exact hk

theorem tracked_unlock {cpu : CpuId} {k : Unit -> KProg Regs Rdma alpha}
    (hclean : g.aborted = false) (hheld : g.lock = .held cpu) (hasked : g.asked = false)
    (hk : Tracked lib (k ()) { g with lock := .returned cpu } post) :
    Tracked lib (.call (.unlock cpu) k) g post := by
  apply tracked_call
  · exact ⟨Or.inl hclean, hheld, hasked⟩
  · intro r habr
    cases habr
  · intro r _
    exact hk

end Tracking

/-!
## Fetching and mapping pages

These programs run with the lock, and leave the state where it was.
-/

def Kept (g g' : CallState) (_ : alpha) : Prop := g' = g

section Pages

variable {lib : KernelLib Regs Rdma} {g : CallState} {d : HeapDescriptor Regs Rdma}

theorem Tracked.keep {p : KProg Regs Rdma alpha} {f : alpha -> KProg Regs Rdma beta}
    {post : CallState -> beta -> Prop} (hp : Tracked lib p g (Kept g))
    (hf : forall a, Tracked lib (f a) g post) : Tracked lib (p >>= f) g post := by
  apply hp.bind
  intro g' a _ hsame
  rw [show g' = g from hsame]
  exact hf a

theorem tracked_getDcQpKey {msg : String} {k : Unit -> KProg Regs Rdma alpha}
    {post : CallState -> alpha -> Prop} (hclean : g.aborted = false) (hholds : g.Holding)
    (hk : Tracked lib (k ()) g post) :
    Tracked lib (.call .getDcQpKey fun r => Prog.expect msg r >>= k) g post :=
  tracked_unwrap .getDcQpKey (fun r => r) ⟨Or.inl hclean, hholds⟩ (fun r => by cases r <;> rfl)
    (fun _ => rfl) (fun _ => hk)

theorem batchReadFrom_tracked (hclean : g.aborted = false) (hholds : g.Holding)
    (info : AccessInfo Rdma) (n i : Nat) (addrs : List Nat) (res : List (Option PageId)) :
    Tracked lib (batchReadFrom d info n i addrs res) g (Kept g) := by
  induction addrs generalizing i res with
  | nil => exact tracked_ret hclean rfl
  | cons remoteVa rest ih =>
      unfold batchReadFrom
      cases d.lookupPgTable remoteVa with
      | none => exact ih (i + 1) _
      | some remotePa =>
          simp only [invoke_bind]
          refine tracked_plain True.intro hclean fun newPage => ?_
          refine tracked_getDcQpKey hclean hholds ?_
          refine tracked_plain True.intro hclean fun posted => ?_
          by_cases hlast : (i == n - 1) = true
          · rw [if_pos hlast]
            refine tracked_plain True.intro hclean fun completion => ?_
            cases completion with
            | done => exact ih (i + 1) _
            | elapsed => exact tracked_plain True.intro hclean fun _ => ih (i + 1) _
            | failed => exact tracked_plain True.intro hclean fun _ => ih (i + 1) _
          · rw [if_neg hlast]
            exact ih (i + 1) _

theorem insertPages_tracked (hclean : g.aborted = false) (vmaDes : VMADescriptor)
    (pages : List (Nat × Option PageId)) :
    Tracked lib (insertPages vmaDes pages) g (Kept g) := by
  induction pages with
  | nil => exact tracked_ret hclean rfl
  | cons page rest ih =>
      rcases page with ⟨addr, newPage⟩
      cases newPage with
      | none => exact ih
      | some newPage => exact tracked_plain True.intro hclean fun _ => ih

variable (hclean : g.aborted = false) (hholds : g.Holding)

include hclean hholds

theorem fetchBatch_tracked (vmaDes : VMADescriptor) (info : AccessInfo Rdma)
    (addrBuf : List Nat) : Tracked lib (fetchBatch d vmaDes info addrBuf) g (Kept g) :=
  (batchReadFrom_tracked hclean hholds info _ _ _ _).keep fun _ =>
    insertPages_tracked hclean vmaDes _

theorem fetchFull_tracked (vmaDes : VMADescriptor) (info : AccessInfo Rdma)
    (addrBuf : List Nat) : Tracked lib (fetchFull d vmaDes info addrBuf) g (Kept g) := by
  unfold fetchFull
  by_cases hfull : batchLen = addrBuf.length
  · rw [if_pos hfull]
    exact fetchBatch_tracked hclean hholds vmaDes info addrBuf
  · rw [if_neg hfull]
    exact tracked_ret hclean rfl

theorem eagerFetchLoop_tracked (vmaDes : VMADescriptor) (info : AccessInfo Rdma)
    (addrs addrBuf : List Nat) :
    Tracked lib (eagerFetchLoop d vmaDes info addrs addrBuf) g (Kept g) := by
  induction addrs generalizing addrBuf with
  | nil => exact tracked_ret hclean rfl
  | cons addr rest ih =>
      exact (fetchFull_tracked hclean hholds vmaDes info _).keep fun _ => ih _

theorem fetchAll_tracked (vmaDes : VMADescriptor) (info : AccessInfo Rdma)
    (addrs : List Nat) : Tracked lib (fetchAll d vmaDes info addrs) g (Kept g) := by
  refine (eagerFetchLoop_tracked hclean hholds vmaDes info _ _).keep fun addrBuf => ?_
  by_cases hempty : ¬ addrBuf.isEmpty
  · simp only [if_pos hempty]
    exact fetchBatch_tracked hclean hholds vmaDes info addrBuf
  · simp only [if_neg hempty]
    exact tracked_ret hclean rfl

omit hholds in
theorem keepAlloc_tracked (m : VMADescriptor) :
    Tracked lib (keepAlloc lib m) g (Kept g) := by
  unfold keepAlloc
  by_cases halloc : containsAlloc lib m
  · rw [if_pos halloc]
    exact tracked_plain True.intro hclean fun _ => tracked_ret hclean rfl
  · rw [if_neg halloc]
    exact tracked_ret hclean rfl

omit hclean hholds in
theorem keepAlloc_panic_tracked (m : VMADescriptor) {post : CallState -> alpha -> Prop}
    {msg : String} :
    Tracked lib (keepAlloc lib m >>= fun _ => .panic msg) { g with aborted := true } post := by
  unfold keepAlloc
  by_cases halloc : containsAlloc lib m
  · rw [if_pos halloc]
    exact tracked_trailing True.intro fun _ => rfl
  · rw [if_neg halloc]
    exact rfl

theorem applyVmaEager_tracked (info : AccessInfo Rdma) (m : VMADescriptor)
    (next : Option VMADescriptor) :
    Tracked lib (applyVmaEager lib d info m next) g (Kept g) := by
  unfold applyVmaEager
  simp only [invoke_bind]
  refine tracked_plain True.intro hclean fun mapped => ?_
  cases mapped with
  | false => exact tracked_ret hclean rfl
  | true =>
      apply tracked_step
      · exact ⟨Or.inl hclean, hholds⟩
      · intro r habr
        rcases eagerFetchVma_eq lib d m info with ⟨_, msg, hpanic⟩ | ⟨addrs, haddrs, _⟩
        · rw [hpanic]
          exact keepAlloc_panic_tracked m
        · rw [aborts_setMixedMap, haddrs] at habr
          cases habr
      · intro r habr
        rcases eagerFetchVma_eq lib d m info with ⟨hnone, _⟩ | ⟨addrs, _, hfetch⟩
        · rw [aborts_setMixedMap, hnone] at habr
          cases habr
        · rw [hfetch]
          exact (keepAlloc_tracked hclean m).keep fun _ =>
            fetchAll_tracked hclean hholds m info addrs

theorem applyEager_tracked (info : AccessInfo Rdma) (vmas : List VMADescriptor) :
    Tracked lib (applyEager lib d info vmas) g (Kept g) := by
  induction vmas with
  | nil => exact tracked_ret hclean rfl
  | cons m rest ih => exact (applyVmaEager_tracked hclean hholds info m _).keep fun _ => ih

omit hholds in
theorem applyLazy_tracked (vmas : List VMADescriptor) :
    Tracked lib (applyLazy lib vmas) g (Kept g) := by
  induction vmas with
  | nil => exact tracked_ret hclean rfl
  | cons m rest ih =>
      unfold applyLazy applyVmaLazy
      apply Tracked.keep
      · simp only [invoke_bind]
        refine tracked_plain True.intro hclean fun mapped => ?_
        cases mapped with
        | false => exact tracked_ret hclean rfl
        | true => exact keepAlloc_tracked hclean m
      · intro _
        exact ih

end Pages

/-!
## The commands
-/

def GaveBack (g : CallState) (_ : alpha) : Prop := ¬ g.Holding

theorem CallState.not_holding_returned {g : CallState} {cpu : CpuId}
    (hreturned : g.lock = .returned cpu) : ¬ g.Holding := by
  intro h
  rcases h with ⟨cpu', hheld⟩
  rw [hreturned] at hheld
  cases hheld

theorem CallState.not_holding_free {g : CallState} (hfree : g.lock = .free) : ¬ g.Holding := by
  intro h
  rcases h with ⟨cpu, hheld⟩
  rw [hfree] at hheld
  cases hheld

section Commands

variable {lib : KernelLib Regs Rdma} {cpu : CpuId} {machine : Option UInt64}

theorem applyTo_tracked (d : HeapDescriptor Regs Rdma) (eagerFetch : Bool) :
    Tracked lib (applyTo lib d eagerFetch) (.inside cpu machine true) (Kept (.inside cpu machine true)) := by
  unfold applyTo
  cases eagerFetch with
  | false => exact applyLazy_tracked rfl d.vma
  | true =>
      simp only [if_true, invoke_bind]
      exact tracked_unwrap (.accessInfoNew d.machineInfo) (fun r => r) ⟨Or.inl rfl, cpu, rfl⟩
        (fun r => by cases r <;> rfl) (fun r => by cases r <;> rfl)
        (fun info => applyEager_tracked rfl ⟨cpu, rfl⟩ info d.vma)

theorem unlockFail_tracked (infoTaken : Bool) :
    Tracked lib (unlockFail cpu) (.inside cpu machine infoTaken) GaveBack := by
  refine tracked_unlock rfl rfl rfl ?_
  exact tracked_ret rfl (CallState.not_holding_returned rfl)

theorem tracked_remoteDescriptorFetch {size pa : UInt64} {session : SessionId}
    {k : Option Bytes -> KProg Regs Rdma alpha} {post : CallState -> alpha -> Prop}
    (hnone : Tracked lib (k none) (.inside cpu machine false) post)
    (hover : forall descBuf, overflows lib descBuf = true ->
      exists msg, k (some descBuf) = .panic msg)
    (hsome : forall descBuf, overflows lib descBuf = false ->
      Tracked lib (k (some descBuf)) (.inside cpu machine false) post) :
    Tracked lib (remoteDescriptorFetch size pa session >>= k) (.inside cpu machine false) post := by
  unfold remoteDescriptorFetch
  simp only [invoke_bind, call_bind, bind_assoc]
  apply tracked_unwrap (.getSs session) (fun r => r) ⟨Or.inl rfl, cpu, rfl⟩
    (fun r => by cases r <;> rfl) (fun _ => rfl)
  intro _
  refine tracked_getDcQpKey rfl ⟨cpu, rfl⟩ ?_
  refine tracked_plain True.intro rfl fun posted => ?_
  cases posted with
  | false => exact hnone
  | true =>
      apply tracked_call
      · exact ⟨Or.inl rfl, cpu, rfl⟩
      · intro completion habr
        cases completion with
        | done descBuf => exact hover descBuf habr
        | elapsed => exact ⟨_, rfl⟩
        | failed => cases habr
      · intro completion habr
        cases completion with
        | done descBuf => exact hsome descBuf habr
        | elapsed => cases habr
        | failed => exact hnone

theorem overflows_abort {descBuf : Bytes}
    (h : HeapDescriptor.deserialize lib descBuf = .error .abort) :
    overflows lib descBuf = true := by
  unfold overflows
  rw [h]

theorem overflows_iff {descBuf : Bytes} :
    overflows lib descBuf = true <->
      HeapDescriptor.deserialize lib descBuf = .error .abort := by
  constructor
  · intro h
    unfold overflows at h
    split at h
    · next habort => exact habort
    · cases h
  · exact overflows_abort

theorem tracked_accessInfoNew {machineInfo : Rdma}
    {k : Option (AccessInfo Rdma) -> KProg Regs Rdma alpha} {post : CallState -> alpha -> Prop}
    (hnone : Tracked lib (k none) (.inside cpu machine false) post)
    (hsome : forall info, Tracked lib (k (some info)) (.inside cpu machine true) post) :
    Tracked lib (.call (.accessInfoNew machineInfo) k) (.inside cpu machine false) post := by
  apply tracked_call
  · exact ⟨Or.inl rfl, cpu, rfl⟩
  · intro info habr
    cases info with
    | none => cases habr
    | some info => cases habr
  · intro info _
    cases info with
    | none => exact hnone
    | some info => exact hsome info

theorem pullFetched_tracked (handlerId : UInt64) (eagerFetch : Bool) {descBuf : Bytes}
    (hfits : overflows lib descBuf = false) :
    Tracked lib (pullFetched lib handlerId cpu eagerFetch descBuf) (.inside cpu machine false)
      GaveBack := by
  unfold pullFetched
  cases hdes : HeapDescriptor.deserialize lib descBuf with
  | error stop =>
      cases stop with
      | abort =>
          rw [overflows_iff.mpr hdes] at hfits
          cases hfits
      | reject => exact unlockFail_tracked false
  | ok des =>
      simp only [invoke_bind]
      apply tracked_accessInfoNew
      · exact unlockFail_tracked false
      · intro info
        apply (applyTo_tracked des eagerFetch).keep
        intro _
        refine tracked_plain True.intro rfl fun _ => ?_
        refine tracked_unlock rfl rfl rfl ?_
        exact tracked_ret rfl (CallState.not_holding_returned rfl)

theorem pullFetched_overflows (handlerId : UInt64) (eagerFetch : Bool) {descBuf : Bytes}
    (hover : overflows lib descBuf = true) :
    exists msg, (pullFetched lib handlerId cpu eagerFetch descBuf : KProg Regs Rdma Int) =
      .panic msg := by
  unfold pullFetched
  rw [overflows_iff.mp hover]
  exact ⟨_, rfl⟩

theorem pullReplied_tracked (handlerId : UInt64) (session : SessionId) (eagerFetch : Bool)
    (d : HeapDescriptorQueryReply) :
    Tracked lib (pullReplied lib handlerId cpu session eagerFetch d) (.inside cpu machine false)
      GaveBack := by
  unfold pullReplied
  by_cases hready : ¬ d.ready
  · rw [if_pos hready]
    exact unlockFail_tracked false
  · rw [if_neg hready]
    apply tracked_remoteDescriptorFetch
    · exact unlockFail_tracked false
    · intro descBuf hover
      exact pullFetched_overflows handlerId eagerFetch hover
    · intro descBuf hfits
      exact pullFetched_tracked handlerId eagerFetch hfits

theorem tracked_begin {msg : String} {k : CpuId -> Unit -> KProg Regs Rdma alpha}
    {post : CallState -> alpha -> Prop}
    (hk : forall cpu, Tracked lib (k cpu ()) (.inside cpu machine false) post) :
    Tracked lib
      (.call .getCallingCpuId fun cpu => lockCpu lib cpu >>= fun _ =>
        .call (.getGlobalCaller cpu) fun caller => Prog.expect msg caller >>= k cpu)
      (.outside machine) post := by
  apply tracked_step
  · exact ⟨Or.inl rfl, rfl⟩
  · intro cpu habr
    rcases lockCpu_eq lib cpu with ⟨hcpu, _⟩ | ⟨_, hlock⟩
    · exact absurd hcpu (Nat.not_lt.mpr (of_decide_eq_true habr))
    · rw [hlock]
      exact tracked_trailing True.intro fun _ => rfl
  · intro cpu habr
    rcases lockCpu_eq lib cpu with ⟨_, hlock⟩ | ⟨hcpu, _⟩
    · rw [hlock]
      refine tracked_lock rfl rfl rfl ?_
      exact tracked_unwrap (.getGlobalCaller cpu) (fun r => r) ⟨Or.inl rfl, cpu, rfl⟩
        (fun r => by cases r <;> rfl) (fun _ => rfl) (fun _ => hk cpu)
    · exact absurd (Nat.not_lt.mp hcpu) (of_decide_eq_false habr)

theorem tracked_exchange {session : SessionId} {rpc : RPCId} {payload : Bytes}
    {timeoutUsec : Nat} {k : UInt64 -> Bool -> KProg Regs Rdma alpha}
    {post : CallState -> alpha -> Prop} {reply : UInt64 -> Option Bytes -> KProg Regs Rdma alpha}
    (hsent : forall m, k m true = .call (.blockOnCaller timeoutUsec) (reply m))
    (hfail : forall m, Tracked lib (k m false) (.inside cpu (some m) false) post)
    (hreply : forall m r, Tracked lib (reply m r) (.inside cpu (some m) false) post) :
    Tracked lib
      (.call .getMacId fun m =>
        .call (.syncCall session { machine := m, cpu := cpu } rpc payload) (k m))
      (.inside cpu machine false) post := by
  apply tracked_call
  · exact ⟨Or.inl rfl, True.intro⟩
  · intro m habr
    cases habr
  · intro m _
    apply tracked_call
    · exact ⟨Or.inl rfl, rfl, rfl, rfl⟩
    · intro sent habr
      cases habr
    · intro sent _
      cases sent with
      | false => exact hfail m
      | true =>
          rw [hsent]
          apply tracked_call
          · exact ⟨Or.inl rfl, ⟨cpu, rfl⟩, rfl⟩
          · intro r habr
            cases habr
          · intro r _
            exact hreply m r

theorem tracked_getMacId {k : UInt64 -> KProg Regs Rdma alpha}
    {post : CallState -> alpha -> Prop}
    (hk : forall m, Tracked lib (k m) (.outside (some m)) post) :
    Tracked lib (.call .getMacId k) (.outside machine) post := by
  apply tracked_call
  · exact ⟨Or.inl rfl, True.intro⟩
  · intro m habr
    cases habr
  · intro m _
    exact hk m

theorem tracked_registerRecvBuf {msg : String} {k : Unit -> KProg Regs Rdma alpha}
    {post : CallState -> alpha -> Prop}
    (hk : Tracked lib (k ()) (.inside cpu machine false) post) :
    Tracked lib (.call .registerRecvBuf fun r => Prog.expect msg r >>= k) (.inside cpu machine false)
      post :=
  tracked_unwrap .registerRecvBuf (fun r => r) ⟨Or.inl rfl, cpu, rfl⟩ (fun r => by cases r <;> rfl)
    (fun _ => rfl) (fun _ => hk)

theorem syscallRmap_tracked (handlerId machineId : UInt64) (eagerFetch : Bool) :
    Tracked lib (syscallRmap lib handlerId machineId eagerFetch) CallState.start GaveBack := by
  unfold syscallRmap
  simp only [invoke_bind]
  apply tracked_begin
  intro cpu
  refine tracked_exchange (fun _ => rfl) ?_ ?_
  · exact fun _ => unlockFail_tracked false
  · intro m reply
    cases reply with
    | none => exact unlockFail_tracked false
    | some reply =>
        apply tracked_registerRecvBuf
        cases lib.queryReply.decode reply with
        | none => exact unlockFail_tracked false
        | some d => exact pullReplied_tracked handlerId _ eagerFetch d

theorem remoteRegisterCall_tracked (localHint machineId : UInt64) (buf : UInt64 × Nat) :
    Tracked lib (remoteRegisterCall lib localHint machineId buf) CallState.start GaveBack := by
  unfold remoteRegisterCall
  simp only [invoke_bind]
  apply tracked_getMacId
  intro source
  apply tracked_begin
  intro cpu
  refine tracked_exchange (fun _ => rfl) ?_ ?_
  · exact fun _ => unlockFail_tracked false
  · intro m reply
    cases reply with
    | none => exact unlockFail_tracked false
    | some reply =>
        apply tracked_registerRecvBuf
        cases lib.registerReply.decode reply with
        | none => exact unlockFail_tracked false
        | some registerRemoteReply =>
            refine tracked_unlock rfl rfl rfl ?_
            refine tracked_plain True.intro rfl fun _ => ?_
            exact tracked_ret rfl (CallState.not_holding_returned rfl)

theorem tracked_registerHeap {key : UInt64} {heapStart : Nat}
    {k : Unit -> KProg Regs Rdma alpha} {post : CallState -> alpha -> Prop}
    (hk : Tracked lib (k ()) CallState.start post) :
    Tracked lib (registerHeap key heapStart >>= k) CallState.start post := by
  unfold registerHeap
  simp only [invoke_bind, call_bind, bind_assoc]
  apply tracked_unwrap .newFromDcTargetPool (fun r => r) ⟨Or.inl rfl, rfl⟩
    (fun r => by cases r <;> rfl) (fun _ => rfl)
  intro rdmaMeta
  exact tracked_plain True.intro rfl fun _ => hk

theorem tracked_allocOneId {msg : String} {k : UInt64 -> KProg Regs Rdma alpha}
    {post : CallState -> alpha -> Prop}
    (hk : forall id, Tracked lib (k id) CallState.start post) :
    Tracked lib (.call .allocOneId fun r => Prog.expect msg r >>= k) CallState.start post :=
  tracked_unwrap .allocOneId (fun r => r) ⟨Or.inl rfl, rfl⟩ (fun r => by cases r <;> rfl)
    (fun _ => rfl) hk

theorem ioctrl_tracked (req : Request) :
    Tracked lib (Kernel.ioctrl lib req) CallState.start GaveBack := by
  cases req with
  | register heapBase =>
      unfold Kernel.ioctrl
      simp only [invoke_bind]
      refine tracked_plain True.intro rfl fun current => ?_
      cases current with
      | some hint => exact tracked_ret rfl (CallState.not_holding_free rfl)
      | none =>
          apply tracked_allocOneId
          intro id
          unfold syscallRegisterMem
          rw [bind_assoc]
          apply tracked_registerHeap
          refine tracked_plain True.intro rfl fun _ => ?_
          exact tracked_ret rfl (CallState.not_holding_free rfl)
  | pull heapHint machineId eagerFetch => exact syscallRmap_tracked _ _ eagerFetch
  | registerRemote heapBase machineId =>
      unfold Kernel.ioctrl
      simp only [invoke_bind]
      apply tracked_allocOneId
      intro id
      unfold syscallRegisterRemoteHeap
      apply tracked_registerHeap
      simp only [invoke_bind]
      refine tracked_plain True.intro rfl fun buf => ?_
      cases buf with
      | none => exact tracked_ret rfl (CallState.not_holding_free rfl)
      | some buf => exact remoteRegisterCall_tracked id _ buf

theorem getMacId_tracked (req : GetMacIdReq) :
    Tracked lib (getMacId req) CallState.start GaveBack := by
  unfold getMacId
  simp only [invoke_bind]
  refine tracked_plain True.intro rfl fun context => ?_
  cases context with
  | none => exact tracked_ret rfl (CallState.not_holding_free rfl)
  | some gidStr =>
      apply tracked_getMacId
      intro machineId
      refine tracked_plain True.intro rfl fun _ => ?_
      refine tracked_plain True.intro rfl fun _ => ?_
      exact tracked_ret rfl (CallState.not_holding_free rfl)

theorem connect_tracked {user : UserMemory} {arg : UInt64} {gid : Bytes}
    (hgid : fromUtf8 (connectGid user arg) = some gid) :
    Tracked lib (connect user arg) CallState.start GaveBack := by
  unfold connect syscallConnectSession
  rw [hgid]
  simp only [invoke_bind, expect_some, ret_bind]
  refine tracked_plain True.intro rfl fun probed => ?_
  cases probed with
  | none => exact tracked_ret rfl (CallState.not_holding_free rfl)
  | some _ => exact tracked_ret rfl (CallState.not_holding_free rfl)

theorem handleNil_tracked (input output : Bytes) :
    Tracked lib (handleNil input output) CallState.start GaveBack :=
  tracked_ret rfl (CallState.not_holding_free rfl)

theorem handleEcho_tracked {input output written : Bytes}
    (hwrite : lib.writeStr output "Hello from DMERGE" = some written) :
    Tracked lib (handleEcho lib input output) CallState.start GaveBack := by
  unfold handleEcho
  rw [hwrite]
  exact tracked_ret rfl (CallState.not_holding_free rfl)

theorem handleQuery_tracked (input output : Bytes) :
    Tracked lib (handleQuery lib input output) CallState.start GaveBack := by
  unfold handleQuery
  simp only [invoke_bind]
  refine tracked_plain True.intro rfl fun buf => ?_
  cases buf with
  | none => exact tracked_ret rfl (CallState.not_holding_free rfl)
  | some buf => exact tracked_ret rfl (CallState.not_holding_free rfl)

theorem handleRemoteRegisterFetchApply_tracked (req : RegisterRemoteReq) :
    Tracked lib (handleRemoteRegisterFetchApply lib req) CallState.start GaveBack := by
  unfold handleRemoteRegisterFetchApply
  simp only [invoke_bind]
  apply tracked_begin
  intro cpu
  apply tracked_remoteDescriptorFetch
  · exact unlockFail_tracked false
  · intro descBuf hover
    exact ⟨addOverflow, by simp only [overflows_iff.mp hover]⟩
  · intro descBuf hfits
    simp only
    cases hdes : HeapDescriptor.deserialize lib descBuf with
    | error stop =>
        cases stop with
        | abort =>
            rw [overflows_iff.mpr hdes] at hfits
            cases hfits
        | reject => exact unlockFail_tracked false
    | ok des =>
        apply tracked_accessInfoNew
        · exact unlockFail_tracked false
        · intro info
          refine tracked_unlock rfl rfl rfl ?_
          exact tracked_ret rfl (CallState.not_holding_returned rfl)

theorem handleRemoteRegister_tracked (input output : Bytes) :
    Tracked lib (handleRemoteRegister lib input output) CallState.start GaveBack := by
  unfold handleRemoteRegister
  apply (handleRemoteRegisterFetchApply_tracked _).bind
  intro g heapHint hclean hback
  by_cases hneg : heapHint < 0
  · rw [if_pos hneg]
    exact tracked_ret hclean hback
  · rw [if_neg hneg]
    exact tracked_ret hclean hback

end Commands

/-!
## Every entry
-/

/-- The address that a connect command points at is UTF-8, and the greeting of an echo can
be written to its buffer. -/
def Entry.Admissible (lib : KernelLib Regs Rdma) : Entry -> Prop
  | .ioctrl cmd arg user => cmd.toNat = 3 -> (fromUtf8 (connectGid user arg)).isSome
  | .echo _ output => (lib.writeStr output "Hello from DMERGE").isSome
  | _ => True

instance (lib : KernelLib Regs Rdma) (e : Entry) : Decidable (e.Admissible lib) := by
  cases e <;> unfold Entry.Admissible <;> infer_instance

section Entries

variable {lib : KernelLib Regs Rdma}

theorem dispatch_tracked {cmd : UInt32} {arg : UInt64} {user : UserMemory}
    (hgid : cmd.toNat = 3 -> (fromUtf8 (connectGid user arg)).isSome) :
    Tracked lib (DmergeSyscallHandler.ioctrl lib cmd arg user) CallState.start GaveBack := by
  unfold DmergeSyscallHandler.ioctrl
  split
  · exact ioctrl_tracked _
  · exact ioctrl_tracked _
  · next hcmd =>
      rcases Option.isSome_iff_exists.mp (hgid hcmd) with ⟨gid, hsome⟩
      exact connect_tracked hsome
  · exact getMacId_tracked _
  · exact ioctrl_tracked _
  · exact tracked_ret rfl (CallState.not_holding_free rfl)

theorem Entry.code_tracked {e : Entry} (h : e.Admissible lib) :
    Tracked lib (e.code lib) CallState.start GaveBack := by
  cases e with
  | ioctrl cmd arg user =>
      apply (dispatch_tracked h).bind
      intro g result hclean hback
      exact tracked_ret hclean hback
  | nil input output =>
      apply (handleNil_tracked input output).bind
      intro g reply hclean hback
      exact tracked_ret hclean hback
  | echo input output =>
      rcases Option.isSome_iff_exists.mp h with ⟨written, hwrite⟩
      apply (handleEcho_tracked hwrite).bind
      intro g reply hclean hback
      exact tracked_ret hclean hback
  | query input output =>
      apply (handleQuery_tracked input output).bind
      intro g reply hclean hback
      exact tracked_ret hclean hback
  | remoteRegister input output =>
      apply (handleRemoteRegister_tracked input output).bind
      intro g reply hclean hback
      exact tracked_ret hclean hback

theorem Entry.code_inadmissible {e : Entry} (h : ¬ e.Admissible lib) :
    e.code lib = .panic unwrapErr := by
  cases e with
  | ioctrl cmd arg user =>
      rcases Classical.not_imp.mp h with ⟨hcmd, hgid⟩
      have hnone : fromUtf8 (connectGid user arg) = none := Option.not_isSome_iff_eq_none.mp hgid
      unfold Entry.code DmergeSyscallHandler.ioctrl
      simp only [hcmd, connect, hnone, expect_none, panic_bind]
  | echo input output =>
      have hnone : lib.writeStr output "Hello from DMERGE" = none :=
        Option.not_isSome_iff_eq_none.mp h
      unfold Entry.code handleEcho
      simp only [hnone, expect_none, panic_bind]
  | nil input output => exact absurd True.intro h
  | query input output => exact absurd True.intro h
  | remoteRegister input output => exact absurd True.intro h

theorem CallState.infoTaken_proceed (g : CallState) (o : KernelOp Regs Rdma) (r : o.Res) :
    (g.proceed o r).infoTaken = (g.infoTaken || takesInfo o r) := by
  cases o with
  | accessInfoNew machineInfo =>
      cases r with
      | none => exact (Bool.or_false _).symm
      | some info => exact (Bool.or_true _).symm
  | _ => exact (Bool.or_false _).symm

theorem CallState.aborted_proceed (g : CallState) (o : KernelOp Regs Rdma) (r : o.Res) :
    (g.proceed o r).aborted = g.aborted := by
  cases o with
  | accessInfoNew machineInfo => cases r <;> rfl
  | _ => rfl

theorem CallState.aborted_after {g : CallState} (h : g.aborted = true) (o : KernelOp Regs Rdma)
    (r : o.Res) : (CallState.after lib g o r).aborted = true := by
  unfold CallState.after
  split
  · rfl
  · rw [CallState.aborted_proceed, h]

theorem aborted_follow {trace : List (Exchange (kernelSig Regs Rdma))} {g : CallState}
    (h : g.aborted = true) : CallState.aborted ((callMonitor lib).follow g trace) = true := by
  induction trace generalizing g with
  | nil => exact h
  | cons e rest ih => exact ih (CallState.aborted_after h e.op e.res)

theorem aborted_follow_iff {trace : List (Exchange (kernelSig Regs Rdma))} {g : CallState}
    (hallows : (callMonitor lib).Allows g trace) (hclean : g.aborted = false) :
    CallState.aborted ((callMonitor lib).follow g trace) = false <->
      NoAbort lib g.infoTaken trace := by
  induction trace generalizing g with
  | nil => exact ⟨fun _ => True.intro, fun _ => hclean⟩
  | cons e rest ih =>
      have hrest : (callMonitor lib).Allows (CallState.after lib g e.op e.res) rest := hallows.2
      show CallState.aborted
        ((callMonitor lib).follow (CallState.after lib g e.op e.res) rest) = false <-> _
      unfold CallState.after at hrest ⊢
      cases habr : aborts lib g.infoTaken e.op e.res with
      | true =>
          rw [if_pos rfl, aborted_follow rfl]
          constructor
          · intro h
            cases h
          · intro h
            rw [h.1] at habr
            cases habr
      | false =>
          rw [habr, if_neg (by decide)] at hrest
          rw [if_neg (by decide), ih hrest (by rw [CallState.aborted_proceed, hclean]),
            CallState.infoTaken_proceed]
          exact ⟨fun h => ⟨habr, h⟩, fun h => h.2⟩

end Entries

/-- An entry of the module ends by returning exactly when it got no answer that aborts
and was given no address that is not UTF-8, and no buffer that an echo cannot write to. -/
theorem entry_returns_iff (lib : KernelLib Regs Rdma) (e : Entry)
    {trace : List (Exchange (kernelSig Regs Rdma))} {out : Outcome Returned}
    (hexec : Executes (e.code lib) trace out) :
    (exists r, out = .returned r) <-> e.Admissible lib ∧ NoAbort lib false trace := by
  by_cases hadmissible : e.Admissible lib
  · rcases Conforms.executes (Entry.code_tracked hadmissible) hexec with ⟨hallows, hends⟩
    have hiff := aborted_follow_iff hallows rfl
    constructor
    · intro h
      rcases h with ⟨r, rfl⟩
      exact ⟨hadmissible, hiff.mp hends.1⟩
    · intro h
      cases out with
      | returned r => exact ⟨r, rfl⟩
      | panicked msg =>
          have haborted : CallState.aborted ((callMonitor lib).follow CallState.start trace) =
            true := hends
          rw [hiff.mpr h.2] at haborted
          cases haborted
  · rw [Entry.code_inadmissible hadmissible] at hexec
    constructor
    · intro h
      rcases h with ⟨r, rfl⟩
      cases hexec
    · intro h
      exact absurd h.1 hadmissible

def execution (e : Entry) (answer : Answers UInt64 UInt64) :
    List (Exchange (kernelSig UInt64 UInt64)) × Outcome Returned :=
  ((e.code plainLib).record (fun o s => (answer o, s)) (),
    ((e.code plainLib).run (fun o s => (answer o, s)) ()).1)

theorem executes_execution (e : Entry) (answer : Answers UInt64 UInt64) :
    Executes (e.code plainLib) (execution e answer).1 (execution e answer).2 :=
  executes_record _ _ _

def pullUser : UserMemory := fun _ => toLE 4 1 ++ (toLE 4 2 ++ toLE 4 0)

theorem entry_returns_iff_pull :
    (execution (.ioctrl 1 4096 pullUser) (obliging none [])).2 = .returned (.result (-1)) ∧
      ((exists r, (execution (.ioctrl 1 4096 pullUser) (obliging none [])).2 = .returned r) <->
        (Entry.ioctrl 1 4096 pullUser).Admissible plainLib ∧
          NoAbort plainLib false (execution (.ioctrl 1 4096 pullUser) (obliging none [])).1) := by
  constructor
  · decide +kernel
  · exact entry_returns_iff plainLib _ (executes_execution _ _)

def noSession : Answers UInt64 UInt64
  | .getSs _ => none
  | o => obliging none [] o

theorem not_entry_returns_noSession :
    ¬ forall (e : Entry) (answer : Answers UInt64 UInt64),
      exists r, (execution e answer).2 = .returned r := by
  intro h
  have hpanics : (execution (.remoteRegister [] []) noSession).2 = .panicked unwrapNone := by
    decide +kernel
  rcases h (.remoteRegister [] []) noSession with ⟨r, hreturned⟩
  rw [hpanics] at hreturned
  cases hreturned

end Kernel
end Dmerge
