import Dmerge.Kernel.PullCalls

/-!
# The outcome of a pull

A pull is run alone against any pattern of answers: each earlier step may
succeed or fail, and so may the mapping of each VMA of the descriptor.  The
regions that it mapped are compared with what it returns.
-/

namespace Dmerge
namespace Kernel

open Foundation Memory Descriptors Producer Prog

variable {Regs Rdma : Type}

/-- The answers that a pull gets. -/
structure PullAnswers (Regs Rdma : Type) where
  sent : Bool
  reply : Option Bytes
  posted : Bool
  completion : Completion Bytes
  /-- The n-th `AccessInfo::new`. -/
  access : Nat -> Rdma -> Option (AccessInfo Rdma)
  /-- Whether the i-th VMA can be mapped. -/
  maps : Nat -> Bool
  /-- The n-th of the other calls. -/
  other : Nat -> (o : KernelOp Regs Rdma) -> o.Res

structure PullWorld (Regs Rdma : Type) where
  accesses : Nat
  tried : Nat
  others : Nat
  /-- The regions that are mapped, the latest last. -/
  mapped : List VMADescriptor
  publicHeaps : List (HeapDataStruct Regs Rdma)

def PullWorld.start (mapped : List VMADescriptor)
    (publicHeaps : List (HeapDataStruct Regs Rdma)) : PullWorld Regs Rdma where
  accesses := 0
  tried := 0
  others := 0
  mapped := mapped
  publicHeaps := publicHeaps

namespace PullAnswers

def answer (a : PullAnswers Regs Rdma) :
    (o : KernelOp Regs Rdma) -> PullWorld Regs Rdma -> o.Res × PullWorld Regs Rdma
  | .syncCall _ _ _ _, w => (a.sent, w)
  | .blockOnCaller _, w => (a.reply, w)
  | .postRead _ _ _, w => (a.posted, w)
  | .blockOnRead _, w => (a.completion, w)
  | .accessInfoNew machineInfo, w =>
      (a.access w.accesses machineInfo, { w with accesses := w.accesses + 1 })
  | .mapOneRegion m _, w =>
      (a.maps w.tried,
        { w with
            tried := w.tried + 1
            mapped := if a.maps w.tried = true then w.mapped ++ [m] else w.mapped })
  | .pushPublicHeap heap, w => ((), { w with publicHeaps := w.publicHeaps ++ [heap] })
  | o, w => (a.other w.others o, { w with others := w.others + 1 })

def fetched (a : PullAnswers Regs Rdma) (lib : KernelLib Regs Rdma) (descBuf : Bytes) :
    Option (HeapDescriptor Regs Rdma) :=
  match HeapDescriptor.deserialize lib descBuf with
  | .ok des => (a.access 0 des.machineInfo).map fun _ => des
  | .error _ => none

/-- The descriptor that the steps before the mapping lead to, when none of them
fails. -/
def descriptor (a : PullAnswers Regs Rdma) (lib : KernelLib Regs Rdma) :
    Option (HeapDescriptor Regs Rdma) :=
  match a.sent, a.reply.bind lib.queryReply.decode with
  | true, some d =>
      match d.ready, a.posted, a.completion with
      | true, true, .done descBuf => a.fetched lib descBuf
      | _, _, _ => none
  | _, _ => none

def mappable (a : PullAnswers Regs Rdma) : Nat -> List VMADescriptor -> List VMADescriptor
  | _, [] => []
  | i, m :: rest => if a.maps i = true then m :: a.mappable (i + 1) rest
      else a.mappable (i + 1) rest

theorem length_mappable_le (a : PullAnswers Regs Rdma) (i : Nat) (vmas : List VMADescriptor) :
    (a.mappable i vmas).length ≤ vmas.length := by
  induction vmas generalizing i with
  | nil => exact Nat.le_refl 0
  | cons m rest ih =>
      unfold mappable
      have hrest := ih (i + 1)
      split
      · simpa using hrest
      · exact Nat.le_succ_of_le hrest

theorem mappable_eq_iff (a : PullAnswers Regs Rdma) (i : Nat) (vmas : List VMADescriptor) :
    a.mappable i vmas = vmas <-> forall j, j < vmas.length -> a.maps (i + j) = true := by
  induction vmas generalizing i with
  | nil => exact ⟨fun _ j hj => absurd hj (Nat.not_lt_zero j), fun _ => rfl⟩
  | cons m rest ih =>
      unfold mappable
      constructor
      · intro h j hj
        split at h
        · next hi =>
            cases j with
            | zero => exact hi
            | succ j =>
                have hrest := (ih (i + 1)).mp (List.cons.inj h).2 j (Nat.lt_of_succ_lt_succ hj)
                rwa [Nat.add_assoc, Nat.add_comm 1 j] at hrest
        · have hlen := a.length_mappable_le (i + 1) rest
          rw [h, List.length_cons] at hlen
          exact absurd hlen (Nat.not_succ_le_self _)
      · intro h
        have hfirst : a.maps i = true := h 0 (Nat.succ_pos _)
        rw [if_pos hfirst]
        congr 1
        apply (ih (i + 1)).mpr
        intro j hj
        have hnext := h (j + 1) (Nat.succ_lt_succ hj)
        rwa [Nat.add_comm j 1, ← Nat.add_assoc] at hnext

end PullAnswers

/-!
## Applying a descriptor
-/

def KernelOp.KeepsRegions : KernelOp Regs Rdma -> Prop
  | .mapOneRegion _ _ | .pushPublicHeap _ => False
  | _ => True

structure SameRegions (w w' : PullWorld Regs Rdma) : Prop where
  tried : w'.tried = w.tried
  mapped : w'.mapped = w.mapped
  publicHeaps : w'.publicHeaps = w.publicHeaps

structure Applied (a : PullAnswers Regs Rdma) (vmas : List VMADescriptor)
    (w : PullWorld Regs Rdma) (r : Outcome Unit × PullWorld Regs Rdma) : Prop where
  publicHeaps : r.2.publicHeaps = w.publicHeaps
  tried : r.1 = .returned () -> r.2.tried = w.tried + vmas.length
  mapped : r.1 = .returned () -> r.2.mapped = w.mapped ++ a.mappable w.tried vmas

section Applying

variable {a : PullAnswers Regs Rdma} {w : PullWorld Regs Rdma}

theorem answer_keepsRegions {o : KernelOp Regs Rdma} (ho : o.KeepsRegions) :
    SameRegions w (a.answer o w).2 := by
  cases o <;> first | exact ⟨rfl, rfl, rfl⟩ | exact ho.elim

theorem SameRegions.trans {w' w'' : PullWorld Regs Rdma} (h : SameRegions w w')
    (h' : SameRegions w' w'') : SameRegions w w'' where
  tried := h'.tried.trans h.tried
  mapped := h'.mapped.trans h.mapped
  publicHeaps := h'.publicHeaps.trans h.publicHeaps

theorem sameRegions_of_only {alpha : Type} {p : KProg Regs Rdma alpha}
    (hp : p.Only KernelOp.KeepsRegions) : SameRegions w (p.run a.answer w).2 :=
  hp.run_preserves (fun _ _ ho hs => hs.trans (answer_keepsRegions ho)) ⟨rfl, rfl, rfl⟩

theorem KernelOp.Fetching.keepsRegions {o : KernelOp Regs Rdma} (h : o.Fetching) :
    o.KeepsRegions := by
  cases o <;> first | exact True.intro | exact h.elim

theorem keepAlloc_keepsRegions (lib : KernelLib Regs Rdma) (m : VMADescriptor) :
    (keepAlloc lib m : KProg Regs Rdma Unit).Only KernelOp.KeepsRegions := by
  unfold keepAlloc
  split
  · exact ⟨True.intro, fun _ => True.intro⟩
  · exact True.intro

theorem applied_vma {m : VMADescriptor} {next : Option VMADescriptor}
    {k : Bool -> KProg Regs Rdma Unit} (hfalse : k false = .ret ())
    (htrue : (k true).Only KernelOp.KeepsRegions) :
    Applied a [m] w
      ((Prog.call (KernelOp.mapOneRegion m next) k : KProg Regs Rdma Unit).run a.answer w) := by
  simp only [run_call, PullAnswers.answer]
  cases hmaps : a.maps w.tried with
  | false =>
      simp only [hfalse, run_ret]
      constructor
      · rfl
      · exact fun _ => rfl
      · intro _
        simp [PullAnswers.mappable, hmaps]
  | true =>
      have hsame : forall w, SameRegions w ((k true).run a.answer w).2 :=
        fun _ => sameRegions_of_only htrue
      constructor
      · exact (hsame _).publicHeaps
      · exact fun _ => (hsame _).tried
      · intro _
        simp [PullAnswers.mappable, hmaps, (hsame _).mapped]

theorem applied_panicked {vmas : List VMADescriptor} {msg : String} {w' : PullWorld Regs Rdma}
    (hheaps : w'.publicHeaps = w.publicHeaps) : Applied a vmas w (.panicked msg, w') where
  publicHeaps := hheaps
  tried h := by cases h
  mapped h := by cases h

theorem Applied.cons {m : VMADescriptor} {rest : List VMADescriptor}
    {p q : KProg Regs Rdma Unit} (hp : Applied a [m] w (p.run a.answer w))
    (hq : forall w, Applied a rest w (q.run a.answer w)) :
    Applied a (m :: rest) w ((p >>= fun _ => q).run a.answer w) := by
  rw [run_bind]
  cases hrun : p.run a.answer w with
  | mk out w' =>
      rw [hrun] at hp
      cases out with
      | panicked msg => exact applied_panicked hp.publicHeaps
      | returned u =>
          have hrest := hq w'
          have htried : w'.tried = w.tried + 1 := hp.tried rfl
          have hmapped : w'.mapped = w.mapped ++ a.mappable w.tried [m] := hp.mapped rfl
          constructor
          · exact hrest.publicHeaps.trans hp.publicHeaps
          · intro hend
            rw [hrest.tried hend, htried, List.length_cons]
            omega
          · intro hend
            rw [hrest.mapped hend, hmapped, htried, List.append_assoc]
            congr 1
            simp only [PullAnswers.mappable]
            split <;> rfl

theorem applied_nil : Applied a [] w ((.ret () : KProg Regs Rdma Unit).run a.answer w) := by
  constructor
  · rfl
  · exact fun _ => rfl
  · exact fun _ => (List.append_nil _).symm

variable (lib : KernelLib Regs Rdma)

theorem run_applyLazy (vmas : List VMADescriptor) (w : PullWorld Regs Rdma) :
    Applied a vmas w ((applyLazy lib vmas).run a.answer w) := by
  induction vmas generalizing w with
  | nil => exact applied_nil
  | cons m rest ih =>
      apply Applied.cons
      · exact applied_vma rfl (keepAlloc_keepsRegions lib m)
      · exact ih

theorem run_applyEager (d : HeapDescriptor Regs Rdma) (info : AccessInfo Rdma)
    (vmas : List VMADescriptor) (w : PullWorld Regs Rdma) :
    Applied a vmas w ((applyEager lib d info vmas).run a.answer w) := by
  induction vmas generalizing w with
  | nil => exact applied_nil
  | cons m rest ih =>
      apply Applied.cons
      · apply applied_vma rfl
        exact ⟨True.intro, fun _ => (keepAlloc_keepsRegions lib m).bind fun _ =>
          (eagerFetchVma_fetching lib d m info).weaken fun _ => KernelOp.Fetching.keepsRegions⟩
      · exact ih

theorem run_applyTo (d : HeapDescriptor Regs Rdma) (eagerFetch : Bool)
    (w : PullWorld Regs Rdma) :
    Applied a d.vma w ((applyTo lib d eagerFetch).run a.answer w) := by
  cases eagerFetch with
  | false => exact run_applyLazy lib d.vma w
  | true =>
      show Applied a d.vma w
        ((Prog.call (KernelOp.accessInfoNew d.machineInfo) fun info =>
          Prog.expect unwrapNone info >>= fun info =>
            applyEager lib d info d.vma : KProg Regs Rdma Unit).run a.answer w)
      rw [run_call]
      simp only [PullAnswers.answer]
      cases a.access w.accesses d.machineInfo with
      | none => exact applied_panicked rfl
      | some info =>
          have happlied : Applied a d.vma { w with accesses := w.accesses + 1 } _ :=
            run_applyEager lib d info d.vma _
          exact ⟨happlied.publicHeaps, happlied.tried, happlied.mapped⟩

end Applying

/-!
## A whole pull
-/

/-- How a pull ends: without a descriptor it fails and changes no region, and with
one it returns 0 and has mapped the VMAs that can be mapped. -/
def PullEndsWith (a : PullAnswers Regs Rdma) (hint : UInt64)
    (des : Option (HeapDescriptor Regs Rdma)) (w : PullWorld Regs Rdma)
    (r : Outcome Int × PullWorld Regs Rdma) : Prop :=
  match des with
  | none => SameRegions w r.2 ∧ forall result, r.1 = .returned result -> result = -1
  | some des => forall result, r.1 = .returned result ->
      result = 0 ∧ r.2.mapped = w.mapped ++ a.mappable w.tried des.vma ∧
        exists info, r.2.publicHeaps =
          w.publicHeaps ++ [{ id := hint, descriptor := des, accessInfo := info }]

section Pulling

variable {a : PullAnswers Regs Rdma} {w : PullWorld Regs Rdma} {hint : UInt64}

theorem run_unlockFail (cpu : CpuId) {w' : PullWorld Regs Rdma} (hsame : SameRegions w w') :
    PullEndsWith a hint none w ((unlockFail cpu : KProg Regs Rdma Int).run a.answer w') := by
  constructor
  · exact ⟨hsame.tried, hsame.mapped, hsame.publicHeaps⟩
  · intro result hend
    cases hend
    rfl

theorem run_panicked (des : Option (HeapDescriptor Regs Rdma)) (msg : String)
    {w' : PullWorld Regs Rdma} (hsame : SameRegions w w') :
    PullEndsWith a hint des w ((Prog.panic msg : KProg Regs Rdma Int).run a.answer w') := by
  cases des with
  | none =>
      refine ⟨hsame, fun result hend => ?_⟩
      cases hend
  | some des =>
      intro result hend
      cases hend

theorem run_expect {alpha : Type} {des : Option (HeapDescriptor Regs Rdma)} {msg : String}
    {x : Option alpha} {k : alpha -> KProg Regs Rdma Int} {w' : PullWorld Regs Rdma}
    (hsame : SameRegions w w')
    (hk : forall y, PullEndsWith a hint des w ((k y).run a.answer w')) :
    PullEndsWith a hint des w ((Prog.expect msg x >>= k).run a.answer w') := by
  cases x with
  | none => exact run_panicked des msg hsame
  | some y => exact hk y

theorem run_skip {des : Option (HeapDescriptor Regs Rdma)} {w' : PullWorld Regs Rdma}
    {r : Outcome Int × PullWorld Regs Rdma} (h : PullEndsWith a hint des w' r)
    (hsame : SameRegions w w') : PullEndsWith a hint des w r := by
  cases des with
  | none => exact ⟨hsame.trans h.1, h.2⟩
  | some des =>
      intro result hend
      rcases h result hend with ⟨hzero, hmapped, info, hheaps⟩
      refine ⟨hzero, ?_, info, ?_⟩
      · rw [hmapped, hsame.mapped, hsame.tried]
      · rw [hheaps, hsame.publicHeaps]

variable (lib : KernelLib Regs Rdma)

theorem run_pullFetched (cpu : CpuId) (eagerFetch : Bool) (descBuf : Bytes)
    (hfirst : w.accesses = 0) :
    PullEndsWith a hint (a.fetched lib descBuf) w
      ((pullFetched lib hint cpu eagerFetch descBuf).run a.answer w) := by
  unfold pullFetched PullAnswers.fetched
  cases HeapDescriptor.deserialize lib descBuf with
  | error stop =>
      cases stop with
      | abort => exact run_panicked none _ ⟨rfl, rfl, rfl⟩
      | reject => exact run_unlockFail cpu ⟨rfl, rfl, rfl⟩
  | ok des =>
      simp only [invoke_bind, run_call, PullAnswers.answer, hfirst]
      cases a.access 0 des.machineInfo with
      | none => exact run_unlockFail cpu ⟨rfl, rfl, rfl⟩
      | some info =>
          have happlied : Applied a des.vma { w with accesses := 0 + 1 }
              ((applyTo lib des eagerFetch).run a.answer { w with accesses := 0 + 1 }) :=
            run_applyTo lib des eagerFetch _
          simp only [run_bind]
          cases hrun : (applyTo lib des eagerFetch).run a.answer { w with accesses := 0 + 1 } with
          | mk out w' =>
              rw [hrun] at happlied
              intro result hend
              cases out with
              | panicked msg => cases hend
              | returned u =>
                  cases hend
                  refine ⟨rfl, happlied.mapped rfl, info, ?_⟩
                  exact congrArg (fun heaps => heaps ++ [_]) happlied.publicHeaps

theorem run_pullReplied (cpu : CpuId) (session : SessionId) (eagerFetch : Bool)
    (d : HeapDescriptorQueryReply) (hfirst : w.accesses = 0) :
    PullEndsWith a hint
      (match d.ready, a.posted, a.completion with
      | true, true, .done descBuf => a.fetched lib descBuf
      | _, _, _ => none) w
      ((pullReplied lib hint cpu session eagerFetch d).run a.answer w) := by
  unfold pullReplied remoteDescriptorFetch
  cases d.ready with
  | false => exact run_unlockFail cpu ⟨rfl, rfl, rfl⟩
  | true =>
      rw [if_neg (by decide)]
      simp only [invoke_bind, call_bind, bind_assoc, run_call]
      refine run_expect ⟨rfl, rfl, rfl⟩ fun _ => ?_
      simp only [run_call]
      refine run_expect ⟨rfl, rfl, rfl⟩ fun _ => ?_
      simp only [run_call, PullAnswers.answer]
      cases a.posted with
      | false => exact run_unlockFail cpu ⟨rfl, rfl, rfl⟩
      | true =>
          simp only [call_bind, run_call, PullAnswers.answer]
          cases a.completion with
          | failed => exact run_unlockFail cpu ⟨rfl, rfl, rfl⟩
          | elapsed => exact run_panicked none _ ⟨rfl, rfl, rfl⟩
          | done descBuf =>
              refine run_skip (run_pullFetched lib cpu eagerFetch descBuf ?_) ⟨rfl, rfl, rfl⟩
              exact hfirst

theorem run_syscallRmap (machineId : UInt64) (eagerFetch : Bool) (hfirst : w.accesses = 0) :
    PullEndsWith a hint (a.descriptor lib) w
      ((syscallRmap lib hint machineId eagerFetch).run a.answer w) := by
  unfold syscallRmap PullAnswers.descriptor
  simp only [invoke_bind, run_call]
  rcases lockCpu_eq lib (a.answer .getCallingCpuId w).1 with ⟨_, hlock⟩ | ⟨_, hlock⟩
  case inr =>
    rw [hlock]
    exact run_panicked _ _ ⟨rfl, rfl, rfl⟩
  simp only [hlock, invoke_bind, run_call]
  refine run_expect ⟨rfl, rfl, rfl⟩ fun _ => ?_
  simp only [run_call, PullAnswers.answer]
  cases a.sent with
  | false => exact run_unlockFail _ ⟨rfl, rfl, rfl⟩
  | true =>
      simp only [run_call, PullAnswers.answer]
      cases a.reply with
      | none => exact run_unlockFail _ ⟨rfl, rfl, rfl⟩
      | some reply =>
          simp only [run_call, PullAnswers.answer, Option.bind_some]
          refine run_expect ⟨rfl, rfl, rfl⟩ fun _ => ?_
          cases lib.queryReply.decode reply with
          | none => exact run_unlockFail _ ⟨rfl, rfl, rfl⟩
          | some d =>
              refine run_skip (run_pullReplied lib _ _ eagerFetch d ?_) ⟨rfl, rfl, rfl⟩
              exact hfirst

end Pulling

/-- A pull either maps its whole descriptor and keeps it, or changes nothing. -/
structure AllOrNothing (hint : UInt64) (w w' : PullWorld Regs Rdma) (result : Int) : Prop where
  all : result = 0 -> exists heap, heap.id = hint ∧
    w'.publicHeaps = w.publicHeaps ++ [heap] ∧ w'.mapped = w.mapped ++ heap.descriptor.vma
  nothing : result = -1 -> w'.mapped = w.mapped ∧ w'.publicHeaps = w.publicHeaps

/-- A pull that returns is all or nothing exactly when each VMA of the descriptor
can be mapped, if the steps before the mapping lead to one. -/
theorem pull_allOrNothing_iff (lib : KernelLib Regs Rdma) (hint machineId : UInt64)
    (eagerFetch : Bool) (a : PullAnswers Regs Rdma) (mapped : List VMADescriptor)
    (publicHeaps : List (HeapDataStruct Regs Rdma)) {result : Int} {w' : PullWorld Regs Rdma}
    (hrun : (syscallRmap lib hint machineId eagerFetch).run a.answer
      (PullWorld.start mapped publicHeaps) = (.returned result, w')) :
    AllOrNothing hint (PullWorld.start mapped publicHeaps) w' result <->
      forall des, a.descriptor lib = some des ->
        forall i, i < des.vma.length -> a.maps i = true := by
  have hends : PullEndsWith a hint (a.descriptor lib) (PullWorld.start mapped publicHeaps)
      (.returned result, w') := by
    rw [← hrun]
    exact run_syscallRmap lib machineId eagerFetch rfl
  cases hdes : a.descriptor lib with
  | none =>
      rw [hdes] at hends
      rcases hends with ⟨hsame, hfail⟩
      have hresult : result = -1 := hfail result rfl
      constructor
      · exact fun _ des h => by cases h
      · intro _
        constructor
        · intro hzero
          rw [hresult] at hzero
          cases hzero
        · exact fun _ => ⟨hsame.mapped, hsame.publicHeaps⟩
  | some des =>
      rw [hdes] at hends
      rcases hends result rfl with ⟨hzero, hmapped, info, hheaps⟩
      have hall : (forall i, i < des.vma.length -> a.maps i = true) <->
          a.mappable 0 des.vma = des.vma := by
        rw [a.mappable_eq_iff]
        simp only [Nat.zero_add]
      constructor
      · intro h des' hsome
        cases hsome
        rcases h.all hzero with ⟨heap, _, hpushed, hwhole⟩
        rw [hheaps] at hpushed
        have hheap := List.append_cancel_left hpushed
        cases hheap
        rw [hmapped] at hwhole
        exact hall.mpr (List.append_cancel_left hwhole)
      · intro h
        constructor
        · intro _
          refine ⟨_, rfl, hheaps, ?_⟩
          rw [hmapped]
          exact congrArg (mapped ++ ·) (hall.mp (h des rfl))
        · intro hminus
          rw [hzero] at hminus
          cases hminus

def twoVmas : ParentDescriptor UInt64 UInt64 where
  regs := 0
  pageTable := [[], []]
  vma :=
    [{ vmStart := 4096, vmEnd := 8192, flags := 0 },
      { vmStart := 8192, vmEnd := 12288, flags := 0 }]
  machineInfo := 0

def answersFor (d : ParentDescriptor UInt64 UInt64) (maps : Nat -> Bool) :
    PullAnswers UInt64 UInt64 where
  sent := true
  reply := some (plainLib.queryReply.encode
    { pa := 0, sz := UInt64.ofNat (d.encode plainLib).length, ready := true })
  posted := true
  completion := .done (d.encode plainLib)
  access _ machineInfo := some { machineInfo := machineInfo }
  maps := maps
  other _ := obliging none []

def pullTwoVmas (maps : Nat -> Bool) : Outcome Int × PullWorld UInt64 UInt64 :=
  (syscallRmap plainLib 1 0 true).run (answersFor twoVmas maps).answer (PullWorld.start [] [])

theorem pull_allOrNothing_iff_whole :
    (pullTwoVmas fun _ => true).1 = .returned 0 ∧
      AllOrNothing 1 (PullWorld.start [] []) (pullTwoVmas fun _ => true).2 0 := by
  have hreturned : (pullTwoVmas fun _ => true).1 = .returned 0 := by
    decide +kernel
  have hrun : pullTwoVmas (fun _ => true) = (.returned 0, (pullTwoVmas fun _ => true).2) :=
    Prod.ext hreturned rfl
  refine ⟨hreturned, ?_⟩
  apply (pull_allOrNothing_iff plainLib 1 0 true (answersFor twoVmas fun _ => true) [] [] hrun).mpr
  intro des _ i _
  rfl

theorem not_pull_allOrNothing_partial :
    ¬ forall (a : PullAnswers UInt64 UInt64) result w',
      (syscallRmap plainLib 1 0 true).run a.answer (PullWorld.start [] []) =
          (.returned result, w') ->
        AllOrNothing 1 (PullWorld.start [] []) w' result := by
  intro h
  have hreturned : (pullTwoVmas fun i => i == 0).1 = .returned 0 := by
    decide +kernel
  have hmapped : (pullTwoVmas fun i => i == 0).2.mapped.length = 1 := by
    decide +kernel
  have hheaps : (pullTwoVmas fun i => i == 0).2.publicHeaps.map
      (fun heap => heap.descriptor.vma.length) = [2] := by
    decide +kernel
  have hrun : pullTwoVmas (fun i => i == 0) =
      (.returned 0, (pullTwoVmas fun i => i == 0).2) := Prod.ext hreturned rfl
  have hall : AllOrNothing 1 (PullWorld.start [] []) (pullTwoVmas fun i => i == 0).2 0 :=
    h (answersFor twoVmas fun i => i == 0) 0 _ hrun
  rcases hall.all rfl with ⟨heap, _, hpushed, hwhole⟩
  rw [hpushed] at hheaps
  have htwo : heap.descriptor.vma.length = 2 := List.head_eq_of_cons_eq hheaps
  rw [hwhole] at hmapped
  have hone : heap.descriptor.vma.length = 1 := hmapped
  omega

end Kernel
end Dmerge
