import Dmerge.Kernel.DeployedCommands
import Dmerge.Producer.AddressFidelity

/-!
# What a deployment shares

A deployment is seen as a system of pages shared under names: the registries
publish, the handles own and attach, the processes keep copies, and the frames
are the memory.  The registry of a machine is sound when its buffers hold what
they should and the counter is ahead of its keys; then the descriptor that a
query leads to is the one that was registered, and its pages are those of the
process at that moment.
-/

namespace Dmerge
namespace Kernel

open Foundation Memory Descriptors Producer Prog

variable {Regs Rdma Page : Type} {bufSize : Nat}

/-!
## The abstraction
-/

def mappingOf (located : Rdma -> UInt64) (d : HeapDescriptor Regs Rdma) : Mapping Nat FrameAddr where
  covers n := d.vma.any fun m => decide (m.Covers (n * pageSize))
  target n := (d.lookupPgTable (n * pageSize)).map fun pa => (located d.machineInfo, pa)

def bundleMapping (located : Rdma -> UInt64) (b : HeapBundler Regs Rdma) : Mapping Nat FrameAddr :=
  mappingOf located b.heap.descriptor.toHeapDescriptor

def heapMapping (located : Rdma -> UInt64) (heap : HeapDataStruct Regs Rdma) :
    HeapName × Mapping Nat FrameAddr :=
  ((located heap.descriptor.machineInfo, heap.id), mappingOf located heap.descriptor)

def sharedNames (located : Rdma -> UInt64) (machines : Machines Regs Rdma bufSize) :
    NameTable HeapName Process (Mapping Nat FrameAddr) where
  published n := ((machines n.1).bundle n.2).map (bundleMapping located)
  spent n := n.2.toNat ≤ (machines n.1).idGen.curId.toNat
  owned p := ((machines p.1).hintOf p.2).map fun key => (p.1, key)
  joined p := ((machines p.1).handlers p.2).map fun h => h.publicHeaps.map (heapMapping located)

def Deployment.shared (located : Rdma -> UInt64) (s : Deployment Regs Rdma Page bufSize) :
    SharedPages HeapName Process Nat FrameAddr Page where
  names := sharedNames located s.machines
  copies p n := (s.memory p).inserted (n * pageSize)
  memory := s.frames

/-!
## What a process captures
-/

/-- What the code needs of a process that registers its heap: its VMAs lie on page
boundaries, its pages less than 4 GiB above the start of their VMAs, the RDMA target is
of its own machine, and the descriptor is not longer than a buffer. -/
structure Captures (lib : KernelLib Regs Rdma) (located : Rdma -> UInt64) (bufSize : Nat)
    (machine : UInt64) (env : Surroundings Regs Rdma) (heapBase : Nat) : Prop where
  aligned : PageAligned env.task.mm.vmas
  offsets : OffsetsFit env.task { startVirtAddr := heapBase }
  target : forall rdmaMeta, env.answer .newFromDcTargetPool = some rdmaMeta ->
    located rdmaMeta = machine ∧
      FitsPool lib bufSize (ShadowHeap.new env.task rdmaMeta { startVirtAddr := heapBase })

section Capture

variable {lib : KernelLib Regs Rdma} {located : Rdma -> UInt64} {machine : UInt64}

theorem mappingOf_covers (task : Producer.Task Regs) (rdmaMeta : Rdma) (heapBase n : Nat) :
    (mappingOf located (ShadowHeap.new task rdmaMeta
      { startVirtAddr := heapBase }).descriptor.toHeapDescriptor).covers n =
        heapCovers task heapBase n := by
  unfold mappingOf heapCovers ParentDescriptor.toHeapDescriptor
  simp only [shadowHeap_descriptor, runDescriptor, List.any_map]
  rfl

theorem heapCovers_iff {task : Producer.Task Regs} {heapBase n : Nat} :
    heapCovers task heapBase n = true <->
      exists vma, vma ∈ heapRun heapBase task.mm.vmas ∧ vma.Covers (n * pageSize) := by
  unfold heapCovers
  simp only [List.any_eq_true, decide_eq_true_eq]

theorem mappingOf_captured {task : Producer.Task Regs} {rdmaMeta : Rdma} {heapBase : Nat}
    (haligned : PageAligned task.mm.vmas)
    (hfit : OffsetsFit task { startVirtAddr := heapBase })
    (hlocated : located rdmaMeta = machine) :
    mappingOf located (ShadowHeap.new task rdmaMeta
      { startVirtAddr := heapBase }).descriptor.toHeapDescriptor =
        capturedMapping machine task heapBase := by
  have hcovers : (mappingOf located (ShadowHeap.new task rdmaMeta
      { startVirtAddr := heapBase }).descriptor.toHeapDescriptor).covers =
        heapCovers task heapBase := by
    funext n
    exact mappingOf_covers task rdmaMeta heapBase n
  have htarget : (mappingOf located (ShadowHeap.new task rdmaMeta
      { startVirtAddr := heapBase }).descriptor.toHeapDescriptor).target =
        (capturedMapping machine task heapBase).target := by
    funext n
    have hsub := heapRun_sublist heapBase task.mm.vmas
    have hlookup : forall pa, runLookup task (heapRun heapBase task.mm.vmas) (n * pageSize) =
        some pa <-> (exists vma, vma ∈ heapRun heapBase task.mm.vmas ∧
          vma.Covers (n * pageSize)) ∧ (task.mm.pte (n * pageSize)).toNat = pa ∧ 0 < pa :=
      fun pa => runLookup_iff_of_fit (fun vma hvma => haligned vma (hsub.subset hvma)) hfit
        (Nat.dvd_mul_left pageSize n)
    unfold mappingOf capturedMapping
    simp only [lookup_shadowHeap]
    have hmachine : located (ShadowHeap.new task rdmaMeta
        { startVirtAddr := heapBase }).descriptor.toHeapDescriptor.machineInfo = machine := by
      rw [shadowHeap_descriptor]
      exact hlocated
    rw [hmachine]
    by_cases hin : heapCovers task heapBase n = true ∧ 0 < (task.mm.pte (n * pageSize)).toNat
    · have hsome := (hlookup _).mpr ⟨heapCovers_iff.mp hin.1, rfl, hin.2⟩
      rw [if_pos hin, hsome, Option.map_some]
    · rw [if_neg hin]
      cases hfound : runLookup task (heapRun heapBase task.mm.vmas) (n * pageSize) with
      | none => rfl
      | some pa =>
          rcases (hlookup pa).mp hfound with ⟨hcovered, hpte, hpos⟩
          rw [← hpte] at hpos
          exact absurd ⟨heapCovers_iff.mpr hcovered, hpos⟩ hin
  exact Mapping.ext hcovers htarget

end Capture

/-!
## A sound machine
-/

structure Deliverable (lib : KernelLib Regs Rdma) (located : Rdma -> UInt64) (bufSize : Nat)
    (machine : UInt64) (heap : ShadowHeap Regs Rdma) : Prop where
  wellFormed : heap.descriptor.WellFormed
  fits : FitsPool lib bufSize heap
  located : located heap.descriptor.machineInfo = machine

structure SoundMachine (lib : KernelLib Regs Rdma) (located : Rdma -> UInt64) (machine : UInt64)
    (s : ModuleState Regs Rdma bufSize) : Prop where
  stored : Stored lib s
  deliverable : forall key b, s.bundle key = some b ->
    Deliverable lib located bufSize machine b.heap
  key_le : forall key b, s.bundle key = some b -> key.toNat ≤ s.idGen.curId.toNat
  hint_le : forall self key, s.hintOf self = some key -> key.toNat ≤ s.idGen.curId.toNat

section Soundness

variable {lib : KernelLib Regs Rdma} {located : Rdma -> UInt64} {machine : UInt64}
variable {s : ModuleState Regs Rdma bufSize} {env : CallEnv Regs Rdma} {heapBase : Nat}

theorem soundMachine_init (lib : KernelLib Regs Rdma) (located : Rdma -> UInt64)
    (machine : UInt64) (pool : Pool bufSize) :
    SoundMachine lib located machine (ModuleState.init pool) where
  stored _ _ h := by cases h
  deliverable _ _ h := by cases h
  key_le _ _ h := by cases h
  hint_le _ _ h := by cases h

theorem SoundMachine.shrink (h : SoundMachine lib located machine s)
    (s' : ModuleState Regs Rdma bufSize) (hpool : s'.pool = s.pool)
    (hbundle : forall key b, s'.bundle key = some b -> s.bundle key = some b)
    (hid : s.idGen.curId.toNat ≤ s'.idGen.curId.toNat)
    (hhint : forall self key, s'.hintOf self = some key ->
      s.hintOf self = some key ∨ key.toNat ≤ s'.idGen.curId.toNat) :
    SoundMachine lib located machine s' where
  stored := h.stored.same hpool hbundle
  deliverable key b hb := h.deliverable key b (hbundle key b hb)
  key_le key b hb := le_trans (h.key_le key b (hbundle key b hb)) hid
  hint_le self key hk := by
    cases hhint self key hk with
    | inl hold => exact le_trans (h.hint_le self key hold) hid
    | inr hnew => exact hnew

theorem SoundMachine.issue (h : SoundMachine lib located machine s) {key : UInt64}
    {idGen : IdFactory} (hid : s.idGen.allocOneId = some (key, idGen)) :
    SoundMachine lib located machine { s with idGen := idGen } := by
  rcases IdFactory.allocOneId_toNat hid with ⟨hkey, hcur⟩
  have hle : s.idGen.curId.toNat ≤ idGen.curId.toNat := by
    rw [hcur, hkey]
    exact Nat.le_succ _
  exact h.shrink { s with idGen := idGen } rfl (fun _ _ hb => hb) hle fun _ _ hk => Or.inl hk

theorem Captures.deliverable (h : Captures lib located bufSize machine env.caller heapBase)
    {rdmaMeta : Rdma} (hmeta : env.caller.answer .newFromDcTargetPool = some rdmaMeta) :
    Deliverable lib located bufSize machine (env.registration heapBase rdmaMeta).heap := by
  rcases h.target rdmaMeta hmeta with ⟨hlocated, hfits⟩
  refine ⟨?_, hfits, ?_⟩
  · show (ShadowHeap.new _ _ _).descriptor.WellFormed
    rw [shadowHeap_descriptor]
    exact runDescriptor_wellFormed _ _ (heapRun_ascending _ _)
  · show located (ShadowHeap.new _ _ _).descriptor.machineInfo = machine
    rw [shadowHeap_descriptor]
    exact hlocated

theorem SoundMachine.register (h : SoundMachine lib located machine s)
    (hcaptures : Captures lib located bufSize machine env.caller heapBase)
    {key : UInt64} {rdmaMeta : Rdma} (hkey : key.toNat ≤ s.idGen.curId.toNat)
    (hfree : s.Free env.caller.buf)
    (hmeta : env.caller.answer .newFromDcTargetPool = some rdmaMeta) :
    SoundMachine lib located machine
      (s.register lib key (env.registration heapBase rdmaMeta)) where
  stored := h.stored.register key hfree
  deliverable key' b hb := by
    rw [ModuleState.bundle_register] at hb
    by_cases hsame : key' = key
    · rw [if_pos hsame] at hb
      cases hb
      exact hcaptures.deliverable hmeta
    · rw [if_neg hsame] at hb
      exact h.deliverable key' b hb
  key_le key' b hb := by
    rw [ModuleState.bundle_register] at hb
    by_cases hsame : key' = key
    · rw [hsame]
      exact hkey
    · rw [if_neg hsame] at hb
      exact h.key_le key' b hb
  hint_le self key' hk := h.hint_le self key' hk

theorem SoundMachine.offers_iff {machines : Machines Regs Rdma bufSize} {target : UInt64}
    (h : SoundMachine lib located target (machines target)) (hsize : bufSize < 2 ^ 64)
    (key : UInt64) (d : HeapDescriptor Regs Rdma) :
    Offers lib machines target key d <-> exists b, (machines target).bundle key = some b ∧
      d = b.heap.descriptor.toHeapDescriptor := by
  have hdecode : forall b, (machines target).bundle key = some b ->
      HeapDescriptor.deserialize lib (((machines target).pool.bytes b.serializedBuf).take
        (UInt64.ofNat b.serializedBufLen).toNat) =
          .ok b.heap.descriptor.toHeapDescriptor := by
    intro b hb
    have hd := h.deliverable key b hb
    rcases h.stored key b hb with ⟨hlen, hbytes⟩
    have hfits : b.serializedBufLen < 2 ^ 64 := by
      rw [hlen]
      exact lt_of_le_of_lt hd.fits hsize
    have hword : (UInt64.ofNat b.serializedBufLen).toNat = b.serializedBufLen := by
      rw [UInt64.toNat_ofNat']
      exact Nat.mod_eq_of_lt hfits
    have hdes := deserialize_encode lib hd.wellFormed []
    rw [List.append_nil] at hdes
    rw [hword, hbytes hd.fits, hdes]
  unfold Offers
  constructor
  · intro hoffers
    rcases hoffers with ⟨b, hb, hd⟩
    rw [hdecode b hb] at hd
    exact ⟨b, hb, (Except.ok.inj hd).symm⟩
  · intro hregistered
    rcases hregistered with ⟨b, hb, rfl⟩
    exact ⟨b, hb, hdecode b hb⟩

end Soundness
end Kernel
end Dmerge
