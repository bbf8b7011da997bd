import Dmerge.Kernel.PullRace
import Dmerge.Kernel.SharedView

/-!
# A deployment is a system of shared pages

Every step of a deployment is observed as steps of the system of pages that are
shared under names: a registration publishes under a name that was never used, a
remote registration lends and may reclaim, a pull attaches what is published
under its hint, a fault reads through what the process has attached, the oldest
first, and a handle that is closed takes back what it has published.  When nobody
writes to a shared frame or to a page of its own, and nothing is prefetched, the
system cannot be told from a store of snapshots.
-/

namespace Dmerge
namespace Kernel

open Foundation Memory Descriptors Producer Prog

variable {Regs Rdma Page : Type} {bufSize : Nat}

/-!
## One machine changes
-/

section Fibers

variable {iota kappa sigma beta : Type} [DecidableEq iota]

theorem fiber_same (f : iota -> sigma -> kappa -> beta) (states : iota -> sigma) (i : iota)
    {s' : sigma} (h : forall k, f i s' k = f i (states i) k) :
    (fun n : iota × kappa => f n.1 (Function.update states i s' n.1) n.2) =
      fun n => f n.1 (states n.1) n.2 := by
  funext n
  rcases n with ⟨j, k⟩
  by_cases hj : j = i
  · subst hj
    simp only [Function.update_self]
    exact h k
  · simp only [Function.update_of_ne hj]

theorem fiber_put [DecidableEq kappa] (f : iota -> sigma -> kappa -> beta)
    (states : iota -> sigma) (i : iota) {s' : sigma} {key : kappa} {x : beta}
    (h : forall k, f i s' k = if k = key then x else f i (states i) k) :
    (fun n : iota × kappa => f n.1 (Function.update states i s' n.1) n.2) =
      Function.update (fun n => f n.1 (states n.1) n.2) (i, key) x := by
  funext n
  rcases n with ⟨j, k⟩
  by_cases hj : j = i
  · subst hj
    simp only [Function.update_self]
    rw [h k]
    by_cases hk : k = key
    · rw [if_pos hk, hk, Function.update_self]
    · have hne : (j, k) ≠ (j, key) := fun heq => hk (Prod.mk.inj heq).2
      rw [if_neg hk, Function.update_of_ne hne]
  · have hne : (j, k) ≠ (i, key) := fun heq => hj (Prod.mk.inj heq).1
    simp only [Function.update_of_ne hj, Function.update_of_ne hne]

end Fibers

section OneMachine

variable (located : Rdma -> UInt64) (machines : Machines Regs Rdma bufSize) {machine : UInt64}
variable {s' : ModuleState Regs Rdma bufSize}

theorem published_same (h : forall key, s'.bundle key = (machines machine).bundle key) :
    (sharedNames located (Function.update machines machine s')).published =
      (sharedNames located machines).published :=
  fiber_same (fun _ (s : ModuleState Regs Rdma bufSize) key =>
    (s.bundle key).map (bundleMapping located)) machines machine
    fun key => congrArg (Option.map (bundleMapping located)) (h key)

theorem published_put {key : UInt64} {b : Option (HeapBundler Regs Rdma)}
    (h : forall key', s'.bundle key' =
      if key' = key then b else (machines machine).bundle key') :
    (sharedNames located (Function.update machines machine s')).published =
      Function.update (sharedNames located machines).published (machine, key)
        (b.map (bundleMapping located)) := by
  apply fiber_put (fun _ (s : ModuleState Regs Rdma bufSize) key =>
    (s.bundle key).map (bundleMapping located)) machines machine
  intro key'
  rw [h key']
  exact apply_ite (Option.map (bundleMapping located)) _ _ _

theorem spent_same (h : s'.idGen = (machines machine).idGen) :
    (sharedNames located (Function.update machines machine s')).spent =
      (sharedNames located machines).spent :=
  fiber_same (fun _ (s : ModuleState Regs Rdma bufSize) (key : UInt64) =>
    key.toNat ≤ s.idGen.curId.toNat) machines machine fun key => by rw [h]

theorem spent_issue {key : UInt64} {idGen : IdFactory}
    (hid : (machines machine).idGen.allocOneId = some (key, idGen)) (h : s'.idGen = idGen) :
    (sharedNames located (Function.update machines machine s')).spent =
      fun n => n = (machine, key) ∨ (sharedNames located machines).spent n := by
  rcases IdFactory.allocOneId_toNat hid with ⟨hkey, hcur⟩
  funext n
  rcases n with ⟨m, key'⟩
  apply propext
  unfold sharedNames
  by_cases hm : m = machine
  · subst hm
    simp only [Function.update_self, h, hcur, Prod.mk.injEq, true_and]
    rw [hkey, Nat.le_add_one_iff, ← hkey, UInt64.toNat_inj, or_comm]
  · have hne : ¬ (m, key') = (machine, key) := fun heq => hm (Prod.mk.inj heq).1
    simp only [Function.update_of_ne hm, hne, false_or]

theorem owned_same (h : forall self, s'.hintOf self = (machines machine).hintOf self) :
    (sharedNames located (Function.update machines machine s')).owned =
      (sharedNames located machines).owned :=
  fiber_same (fun m (s : ModuleState Regs Rdma bufSize) self =>
    (s.hintOf self).map fun key => (m, key)) machines machine
    fun self => congrArg (Option.map fun key => (machine, key)) (h self)

theorem owned_put {self : Nat} {hint : Option UInt64}
    (h : forall self', s'.hintOf self' =
      if self' = self then hint else (machines machine).hintOf self') :
    (sharedNames located (Function.update machines machine s')).owned =
      Function.update (sharedNames located machines).owned (machine, self)
        (hint.map fun key => (machine, key)) := by
  apply fiber_put (fun m (s : ModuleState Regs Rdma bufSize) self =>
    (s.hintOf self).map fun key => (m, key)) machines machine
  intro self'
  rw [h self']
  exact apply_ite (Option.map fun key => (machine, key)) _ _ _

def ModuleState.pulledOf (s : ModuleState Regs Rdma bufSize) (self : Nat) :
    Option (List (HeapDataStruct Regs Rdma)) :=
  (s.handlers self).map DmergeSyscallHandler.publicHeaps

theorem joined_eq (n : Process) : (sharedNames located machines).joined n =
    ((machines n.1).pulledOf n.2).map fun heaps => heaps.map (heapMapping located) := by
  unfold sharedNames ModuleState.pulledOf
  rw [Option.map_map]
  rfl

theorem joined_same (h : forall self, s'.pulledOf self = (machines machine).pulledOf self) :
    (sharedNames located (Function.update machines machine s')).joined =
      (sharedNames located machines).joined := by
  funext n
  rw [joined_eq, joined_eq]
  exact congrFun (fiber_same (fun _ (s : ModuleState Regs Rdma bufSize) self =>
    (s.pulledOf self).map fun heaps => heaps.map (heapMapping located)) machines machine
      fun self => by rw [h self]) n

theorem joined_put {self : Nat} {heaps : Option (List (HeapDataStruct Regs Rdma))}
    (h : forall self', s'.pulledOf self' =
      if self' = self then heaps else (machines machine).pulledOf self') :
    (sharedNames located (Function.update machines machine s')).joined =
      Function.update (sharedNames located machines).joined (machine, self)
        (heaps.map fun heaps => heaps.map (heapMapping located)) := by
  have hold : (sharedNames located machines).joined = fun n : Process =>
      ((machines n.1).pulledOf n.2).map fun heaps => heaps.map (heapMapping located) := by
    funext n
    exact joined_eq _ _ n
  funext n
  rw [joined_eq, hold]
  refine congrFun (fiber_put (fun _ (s : ModuleState Regs Rdma bufSize) self =>
    (s.pulledOf self).map fun heaps => heaps.map (heapMapping located)) machines machine
      fun self' => ?_) n
  rw [h self']
  exact apply_ite (Option.map _) _ _ _

end OneMachine

theorem ModuleState.pulledOf_setHandler (s : ModuleState Regs Rdma bufSize) (self : Nat)
    (handler : Option (DmergeSyscallHandler Regs Rdma)) (self' : Nat) :
    (s.setHandler self handler).pulledOf self' =
      if self' = self then handler.map DmergeSyscallHandler.publicHeaps else s.pulledOf self' := by
  unfold setHandler pulledOf
  by_cases hself : self' = self
  · rw [if_pos hself, hself]
    simp only [Function.update_self]
  · rw [if_neg hself]
    simp only [Function.update_of_ne hself]

theorem ModuleState.pulledOf_updateHandler (s : ModuleState Regs Rdma bufSize) (self : Nat)
    (f : DmergeSyscallHandler Regs Rdma -> DmergeSyscallHandler Regs Rdma) (self' : Nat) :
    (s.updateHandler self f).pulledOf self' =
      if self' = self then (s.handlers self).map fun h => (f h).publicHeaps
      else s.pulledOf self' := by
  unfold updateHandler
  rw [pulledOf_setHandler, Option.map_map]
  rfl

/-!
## The names of a deployment
-/

section NameSteps

variable {lib : KernelLib Regs Rdma} {located : Rdma -> UInt64}
variable {machines : Machines Regs Rdma bufSize} {machine : UInt64} {self : Nat}
variable {env : CallEnv Regs Rdma} {heapBase : Nat} {key : UInt64} {idGen : IdFactory}

theorem not_spent (hid : (machines machine).idGen.allocOneId = some (key, idGen)) :
    ¬ (sharedNames located machines).spent (machine, key) := by
  rcases IdFactory.allocOneId_toNat hid with ⟨hkey, _⟩
  unfold sharedNames
  simp only [not_le]
  rw [hkey]
  exact Nat.lt_succ_self _

theorem enter_step (hout : (machines machine).handlers self = none) :
    (sharedNames located machines).Step (.enter (machine, self))
      (sharedNames located (Function.update machines machine
        ((machines machine).setHandler self (some DmergeSyscallHandler.default)))) := by
  have hjoined := joined_put located machines
    ((machines machine).pulledOf_setHandler self (some DmergeSyscallHandler.default))
  have howned := owned_put located machines
    ((machines machine).hintOf_setHandler self (some DmergeSyscallHandler.default))
  have hnone : (sharedNames located machines).joined (machine, self) = none := by
    unfold sharedNames
    simp only [hout, Option.map_none]
  have hnames := NameTable.Step.enter (s := sharedNames located machines) (machine, self) hnone
  convert hnames using 1
  exact NameTable.ext (published_same _ _ fun _ => rfl) (spent_same _ _ rfl) howned hjoined

theorem waste_step (hid : (machines machine).idGen.allocOneId = some (key, idGen)) :
    (sharedNames located machines).Step (.waste (machine, key))
      (sharedNames located (Function.update machines machine
        { machines machine with idGen := idGen })) := by
  have hnames := NameTable.Step.waste (s := sharedNames located machines) (machine, key)
  convert hnames using 1
  exact NameTable.ext (published_same _ _ fun _ => rfl) (spent_issue _ _ hid rfl)
    (owned_same _ _ fun _ => rfl) (joined_same _ _ fun _ => rfl)

def ModuleState.registerFor (lib : KernelLib Regs Rdma) (s : ModuleState Regs Rdma bufSize)
    (self : Nat) (key : UInt64) (idGen : IdFactory) (reg : Registration Regs Rdma) :
    ModuleState Regs Rdma bufSize :=
  ({ s with idGen := idGen }.register lib key reg).updateHandler self
    fun h => { h with privateHeapHint := some key }

theorem publish_step (lib : KernelLib Regs Rdma) (located : Rdma -> UInt64)
    (hin : ((machines machine).handlers self).isSome)
    (hhint : (machines machine).hintOf self = none)
    (hid : (machines machine).idGen.allocOneId = some (key, idGen))
    (reg : Registration Regs Rdma) :
    (sharedNames located machines).Step
      (.publish (machine, self) (machine, key) (bundleMapping located (reg.bundler lib)))
      (sharedNames located (Function.update machines machine
        ((machines machine).registerFor lib self key idGen reg))) := by
  rcases Option.isSome_iff_exists.mp hin with ⟨handler, hhandler⟩
  have hbundle : forall key',
      ((machines machine).registerFor lib self key idGen reg).bundle key' =
        if key' = key then some (reg.bundler lib) else (machines machine).bundle key' :=
    fun key' => ModuleState.bundle_register lib { machines machine with idGen := idGen } key reg
      key'
  have hpublished := published_put located machines hbundle
  have hnewHint : forall self',
      ((machines machine).registerFor lib self key idGen reg).hintOf self' =
        if self' = self then some key else (machines machine).hintOf self' := by
    intro self'
    unfold ModuleState.registerFor
    rw [ModuleState.hintOf_updateHandler]
    show (if self' = self then ((machines machine).handlers self).bind fun _ => some key
      else (machines machine).hintOf self') = _
    rw [hhandler, Option.bind_some]
  have hpulled : forall self',
      ((machines machine).registerFor lib self key idGen reg).pulledOf self' =
        (machines machine).pulledOf self' := by
    intro self'
    unfold ModuleState.registerFor
    rw [ModuleState.pulledOf_updateHandler]
    by_cases hself : self' = self
    · rw [if_pos hself, hself]
      rfl
    · rw [if_neg hself]
      rfl
  have hjoined : ((sharedNames located machines).joined (machine, self)).isSome := by
    unfold sharedNames
    simp only [hhandler, Option.map_some, Option.isSome_some]
  have hnone : (sharedNames located machines).owned (machine, self) = none := by
    unfold sharedNames
    simp only [hhint, Option.map_none]
  have hnames := NameTable.Step.publish (s := sharedNames located machines) (machine, self)
    (machine, key) (bundleMapping located (reg.bundler lib)) hjoined hnone (not_spent hid)
  convert hnames using 1
  exact NameTable.ext hpublished (spent_issue _ _ hid rfl) (owned_put _ _ hnewHint) (joined_same _ _ hpulled)

theorem retell_step (hhint : (machines machine).hintOf self = some key) :
    (sharedNames located machines).Step (.retell (machine, self) (machine, key))
      (sharedNames located machines) := by
  apply NameTable.Step.retell
  unfold sharedNames
  simp only [hhint, Option.map_some]

theorem lend_step (lib : KernelLib Regs Rdma) (located : Rdma -> UInt64)
    (hid : (machines machine).idGen.allocOneId = some (key, idGen))
    (reg : Registration Regs Rdma) :
    (sharedNames located machines).Step
      (.lend (machine, key) (bundleMapping located (reg.bundler lib)))
      (sharedNames located (Function.update machines machine
        ({ machines machine with idGen := idGen }.register lib key reg))) := by
  have hbundle : forall key',
      ({ machines machine with idGen := idGen }.register lib key reg).bundle key' =
        if key' = key then some (reg.bundler lib) else (machines machine).bundle key' :=
    fun key' => ModuleState.bundle_register lib { machines machine with idGen := idGen } key reg
      key'
  have hpublished := published_put located machines hbundle
  have hnames := NameTable.Step.lend (s := sharedNames located machines)
    (machine, key) (bundleMapping located (reg.bundler lib)) (not_spent hid)
  convert hnames using 1
  exact NameTable.ext hpublished (spent_issue _ _ hid rfl) (owned_same _ _ fun _ => rfl)
    (joined_same _ _ fun _ => rfl)

theorem reclaim_step {s' : ModuleState Regs Rdma bufSize}
    (hfree : forall self, (machines machine).hintOf self ≠ some key)
    (hid : s'.idGen = (machines machine).idGen)
    (hhandlers : s'.handlers = (machines machine).handlers)
    (hbundle : forall key', s'.bundle key' =
      if key' = key then none else (machines machine).bundle key') :
    (sharedNames located machines).Step (.reclaim (machine, key))
      (sharedNames located (Function.update machines machine s')) := by
  have hunowned : forall p, (sharedNames located machines).owned p ≠ some (machine, key) := by
    intro p howned
    unfold sharedNames at howned
    rcases Option.map_eq_some_iff.mp howned with ⟨key', hkey', hname⟩
    rcases Prod.mk.inj hname with ⟨hmachine, rfl⟩
    rw [hmachine] at hkey'
    exact hfree p.2 hkey'
  have hhint : forall self, s'.hintOf self = (machines machine).hintOf self := by
    intro self
    unfold ModuleState.hintOf
    rw [hhandlers]
  have hpulled : forall self, s'.pulledOf self = (machines machine).pulledOf self := by
    intro self
    unfold ModuleState.pulledOf
    rw [hhandlers]
  have hnames := NameTable.Step.reclaim (s := sharedNames located machines) (machine, key) hunowned
  convert hnames using 1
  exact NameTable.ext (published_put _ _ hbundle) (spent_same _ _ hid) (owned_same _ _ hhint)
    (joined_same _ _ hpulled)

theorem attach_step (hin : ((machines machine).handlers self).isSome) {target : UInt64}
    {b : HeapBundler Regs Rdma} (hb : (machines target).bundle key = some b)
    (heap : HeapDataStruct Regs Rdma) (hid : heap.id = key)
    (hdescriptor : heap.descriptor = b.heap.descriptor.toHeapDescriptor)
    (hlocated : located heap.descriptor.machineInfo = target) :
    (sharedNames located machines).Step
      (.attach (machine, self) (target, key) (mappingOf located heap.descriptor))
      (sharedNames located (Function.update machines machine
        ((machines machine).updateHandler self fun h =>
          { h with publicHeaps := h.publicHeaps ++ [heap] }))) := by
  rcases Option.isSome_iff_exists.mp hin with ⟨handler, hhandler⟩
  have hpublished : (sharedNames located machines).published (target, key) =
      some (mappingOf located heap.descriptor) := by
    unfold sharedNames
    simp only [hb, Option.map_some]
    rw [hdescriptor]
    rfl
  have hqs : (sharedNames located machines).joined (machine, self) =
      some (handler.publicHeaps.map (heapMapping located)) := by
    unfold sharedNames
    simp only [hhandler, Option.map_some]
  have hjoined := joined_put located machines
    ((machines machine).pulledOf_updateHandler self fun h =>
      { h with publicHeaps := h.publicHeaps ++ [heap] })
  rw [hhandler] at hjoined
  simp only [Option.map_some, List.map_append, List.map_singleton] at hjoined
  have hname : heapMapping located heap =
      ((target, key), mappingOf located heap.descriptor) := by
    unfold heapMapping
    rw [hid, hlocated]
  rw [hname] at hjoined
  have hnames := NameTable.Step.attach (machine, self) (target, key) _ _ hpublished hqs
  convert hnames using 1
  exact NameTable.ext (published_same _ _ fun _ => rfl) (spent_same _ _ rfl)
    (owned_same _ _ fun self' => ModuleState.hintOf_pushPublicHeap _ self heap self') hjoined

theorem leave_step (hin : ((machines machine).handlers self).isSome)
    (env : Surroundings Regs Rdma) :
    (sharedNames located machines).Step (.leave (machine, self))
      (sharedNames located (Function.update machines machine
        ((runAlone lib self env dropHandler (machines machine)).2.1.setHandler self none))) := by
  have hpublished : (sharedNames located (Function.update machines machine
      ((runAlone lib self env dropHandler (machines machine)).2.1.setHandler self
        none))).published =
        fun n => if (sharedNames located machines).owned (machine, self) = some n then none
          else (sharedNames located machines).published n := by
    funext n
    rcases n with ⟨m, key'⟩
    unfold sharedNames
    by_cases hm : m = machine
    · subst hm
      simp only [Function.update_self, ModuleState.bundle_setHandler, bundle_dropHandler]
      by_cases hkey : (machines m).hintOf self = some key'
      · rw [if_pos hkey, hkey, Option.map_some, if_pos rfl, Option.map_none]
      · have hname : ((machines m).hintOf self).map (fun key => (m, key)) ≠ some (m, key') := by
          intro hname
          rcases Option.map_eq_some_iff.mp hname with ⟨key'', hkey'', hpair⟩
          rw [(Prod.mk.inj hpair).2] at hkey''
          exact hkey hkey''
        rw [if_neg hkey, if_neg hname]
    · have hname : ((machines machine).hintOf self).map (fun key => (machine, key)) ≠
          some (m, key') := by
        intro hname
        rcases Option.map_eq_some_iff.mp hname with ⟨_, _, hpair⟩
        exact hm (Prod.mk.inj hpair).1.symm
      simp only [Function.update_of_ne hm]
      rw [if_neg hname]
  have hdrop : forall self',
      ((runAlone lib self env dropHandler (machines machine)).2.1.setHandler self none).hintOf
        self' = if self' = self then none else (machines machine).hintOf self' := by
    intro self'
    rw [ModuleState.hintOf_setHandler]
    unfold ModuleState.hintOf
    rw [handlers_close]
    rfl
  have hpulled : forall self',
      ((runAlone lib self env dropHandler (machines machine)).2.1.setHandler self none).pulledOf
        self' = if self' = self then none else (machines machine).pulledOf self' := by
    intro self'
    rw [ModuleState.pulledOf_setHandler]
    unfold ModuleState.pulledOf
    rw [handlers_close]
    rfl
  have hid : ((runAlone lib self env dropHandler (machines machine)).2.1.setHandler self
      none).idGen = (machines machine).idGen := by
    rw [runAlone_dropHandler]
    cases (machines machine).hintOf self <;> rfl
  have hjoined : ((sharedNames located machines).joined (machine, self)).isSome := by
    unfold sharedNames
    simp only [Option.isSome_map]
    exact hin
  have hnames := NameTable.Step.leave (s := sharedNames located machines) (machine, self) hjoined
  convert hnames using 1
  exact NameTable.ext hpublished (spent_same _ _ hid) (owned_put _ _ hdrop) (joined_put _ _ hpulled)

end NameSteps

/-!
## A page is touched
-/

def KernelOp.Fetch : KernelOp Regs Rdma -> Prop
  | .accessInfoNew _ | .allocPage | .remoteRead _ _ _ | .freePage _ => True
  | _ => False

theorem readRemotePage_fetch (d : HeapDescriptor Regs Rdma) (va : Nat)
    (info : AccessInfo Rdma) : (readRemotePage d va info).Only KernelOp.Fetch := by
  unfold readRemotePage
  cases d.lookupPgTable va with
  | none => exact True.intro
  | some pa =>
      refine ⟨True.intro, fun newPage => ⟨True.intro, fun ok => ?_⟩⟩
      cases ok with
      | true => exact True.intro
      | false => exact ⟨True.intro, fun _ => True.intro⟩

theorem findPage_fetch (va : Nat) (heaps : List (HeapDataStruct Regs Rdma)) :
    (findPage va heaps).Only KernelOp.Fetch := by
  induction heaps with
  | nil => exact True.intro
  | cons heap rest ih =>
      unfold findPage
      cases heap.descriptor.lookupPgTable va with
      | none => exact ih
      | some pa =>
          refine ⟨True.intro, fun info => ?_⟩
          cases info with
          | none => exact ih
          | some info =>
              apply (readRemotePage_fetch heap.descriptor va info).bind
              intro page
              cases page with
              | none => exact ih
              | some newPage => exact True.intro

theorem handlePageFault_fetch (heaps : List (HeapDataStruct Regs Rdma)) (va : Nat) :
    (handlePageFault heaps va).Only KernelOp.Fetch := by
  apply (findPage_fetch va heaps).bind
  intro page
  cases page <;> exact True.intro

section Touch

variable {c : Reader Regs Rdma Page}

theorem inserted_fault (heaps : List (HeapDataStruct Regs Rdma)) (va : Nat)
    (w : ReaderWorld Regs Rdma Page) :
    ((handlePageFault heaps va).run c.answer w).2.inserted = w.inserted := by
  have hcall : forall (o : KernelOp Regs Rdma) (w' : ReaderWorld Regs Rdma Page), o.Fetch ->
      w'.inserted = w.inserted -> (c.answer o w').2.inserted = w.inserted := by
    intro o w' ho hw'
    cases o <;> first | exact hw' | exact ho.elim
  exact @Only.run_preserves _ _ _ _ _
    (fun w' : ReaderWorld Regs Rdma Page => w'.inserted = w.inserted) _
    (handlePageFault_fetch heaps va) hcall w rfl

theorem touch_inserted (heaps : List (HeapDataStruct Regs Rdma)) (mem : ProcessMemory Page)
    (va : Nat) :
    (mem.touch c heaps va).2.inserted =
      Function.update mem.inserted va (mem.touch c heaps va).1 := by
  unfold ProcessMemory.touch
  cases hva : mem.inserted va with
  | some page =>
      simp only
      rw [← hva, Function.update_eq_self]
  | none =>
      have hkept := inserted_fault (c := c) heaps va (mem.world heaps)
      simp only
      split
      · next newPage w hrun =>
          rw [hrun] at hkept
          simp only
          rw [show w.inserted = mem.inserted from hkept]
      · next w _ hrun =>
          rw [hrun] at hkept
          simp only
          rw [← hva, Function.update_eq_self]
          exact hkept

theorem touch_page (heaps : List (HeapDataStruct Regs Rdma)) (mem : ProcessMemory Page)
    (va : Nat) :
    (mem.touch c heaps va).1 =
      (mem.inserted va).or ((c.oldest (heaps.map HeapDataStruct.descriptor) va).map c.remote) := by
  have hfault : c.fault (mem.world heaps) va =
      (c.oldest (heaps.map HeapDataStruct.descriptor) va).map c.remote :=
    fault_eq c (mem.world heaps) va
  rw [← hfault]
  unfold ProcessMemory.touch Reader.fault
  cases hva : mem.inserted va with
  | some page => rw [Option.some_or]
  | none =>
      rw [Option.none_or]
      have hheaps : (mem.world heaps : ReaderWorld Regs Rdma Page).publicHeaps = heaps := rfl
      rw [hheaps]
      generalize (handlePageFault heaps va).run c.answer (mem.world heaps) = r
      rcases r with ⟨out, w⟩
      cases out with
      | panicked msg => rfl
      | returned result =>
          cases result with
          | page newPage => rfl
          | sigsegv => rfl

theorem oldest_map_remote (haccess : forall machineInfo, c.accessible machineInfo = true)
    (ds : List (HeapDescriptor Regs Rdma)) (va : Nat) :
    (c.oldest ds va).map c.remote = ds.findSome? fun d => c.pageAt d va := by
  unfold Reader.oldest
  induction ds with
  | nil => rfl
  | cons d rest ih =>
      rw [List.findSome?_cons]
      unfold Reader.pageAt
      cases hlookup : d.lookupPgTable va with
      | none =>
          rw [mappedPages_cons_none _ hlookup]
          unfold mappedPage
          rw [hlookup]
          exact ih
      | some pa =>
          rw [mappedPages_cons_some _ hlookup, List.find?_cons, haccess]
          unfold mappedPage
          rw [hlookup]
          rfl

end Touch

/-!
## The steps of a deployment
-/

/-- What the code needs of a step: what is registered can be captured, and when a page is
touched the other machines can be accessed. -/
def DeployAct.Sound (lib : KernelLib Regs Rdma) (located : Rdma -> UInt64) (bufSize : Nat) :
    DeployAct Regs Rdma Page -> Prop
  | .command p (.register heapBase) env =>
      Captures lib located bufSize p.1 env.caller heapBase.toNat
  | .command p (.registerRemote heapBase _) env =>
      Captures lib located bufSize p.1 env.caller heapBase.toNat
  | .touch _ _ answer => forall machineInfo, (answer (.accessInfoNew machineInfo)).isSome
  | .store _ _ _ answer => forall machineInfo, (answer (.accessInfoNew machineInfo)).isSome
  | _ => True

/-- A step that writes to no shared frame and to no page of a process, and prefetches
nothing. -/
def Deployment.Frozen (located : Rdma -> UInt64) (s : Deployment Regs Rdma Page bufSize) :
    DeployAct Regs Rdma Page -> Prop
  | .command _ (.pull _ _ eagerFetch) _ => eagerFetch = false
  | .store _ _ _ _ => False
  | .write frame _ => ¬ (s.shared located).Shares frame
  | _ => True

def Deployment.Sound (lib : KernelLib Regs Rdma) (located : Rdma -> UInt64)
    (s : Deployment Regs Rdma Page bufSize) : Prop :=
  forall machine, SoundMachine lib located machine (s.machines machine)

section Steps

variable {lib : KernelLib Regs Rdma} {located : Rdma -> UInt64}
variable {s : Deployment Regs Rdma Page bufSize} {p : Process}

theorem isSome_joined (h : s.Opened p) : ((s.shared located).names.joined p).isSome := by
  unfold Deployment.shared sharedNames
  rw [Option.isSome_map]
  exact h

theorem joined_none (h : ¬ s.Opened p) : (s.shared located).names.joined p = none := by
  have hnone : (s.machines p.1).handlers p.2 = none := Option.not_isSome_iff_eq_none.mp h
  unfold Deployment.shared sharedNames
  simp only [hnone, Option.map_none]

theorem joined_heaps (h : s.Opened p) :
    (s.shared located).names.joined p = some ((s.heaps p).map (heapMapping located)) := by
  unfold Deployment.shared sharedNames Deployment.heaps
  rcases Option.isSome_iff_exists.mp h with ⟨handler, hhandler⟩
  simp only [hhandler, Option.map_some, Option.getD_some]

theorem shared_update (machines : Machines Regs Rdma bufSize) (mem' : ProcessMemory Page) :
    ({ s with
        machines := machines
        memory := Function.update s.memory p mem' }.shared located) =
      { s.shared located with
          names := sharedNames located machines
          copies := Function.update (s.shared located).copies p
            fun n => mem'.inserted (n * pageSize) } := by
  apply SharedPages.ext
  · rfl
  · exact Function.comp_update (fun (mem : ProcessMemory Page) n => mem.inserted (n * pageSize))
      s.memory p mem'
  · rfl

theorem sound_update {machines : Machines Regs Rdma bufSize}
    (h : forall machine, SoundMachine lib located machine (machines machine)) {machine : UInt64}
    {s' : ModuleState Regs Rdma bufSize} (hs' : SoundMachine lib located machine s') :
    forall m, SoundMachine lib located m (Function.update machines machine s' m) := by
  intro m
  by_cases hm : m = machine
  · subst hm
    rw [Function.update_self]
    exact hs'
  · rw [Function.update_of_ne hm]
    exact h m

theorem page_injective {n n' : Nat} (h : n * pageSize = n' * pageSize) : n = n' :=
  Nat.eq_of_mul_eq_mul_right (by decide) h

theorem found_heaps (h : s.Opened p) (n : Nat) (answer : Answers Regs Rdma) :
    ((s.shared located).found p n).map s.frames =
      ((s.heaps p).map HeapDataStruct.descriptor).findSome? fun d =>
        (s.reader located answer).pageAt d (n * pageSize) := by
  unfold SharedPages.found
  rw [joined_heaps h, Option.getD_some]
  induction s.heaps p with
  | nil => rfl
  | cons heap rest ih =>
      rw [List.map_cons, List.map_cons, List.findSome?_cons, List.findSome?_cons]
      unfold Reader.pageAt mappedPage
      simp only [heapMapping, mappingOf]
      cases heap.descriptor.lookupPgTable (n * pageSize) with
      | none => exact ih
      | some pa => rfl

theorem touch_view (h : s.Opened p) {n : Nat} {answer : Answers Regs Rdma}
    (haccess : forall machineInfo, (answer (.accessInfoNew machineInfo)).isSome) :
    (s.touch located p n answer).1 = (s.shared located).view p n := by
  unfold Deployment.touch
  rw [touch_page, oldest_map_remote (fun machineInfo => haccess machineInfo),
    ← found_heaps h n answer]
  rfl

theorem copies_touch (h : s.Opened p) {n : Nat} {answer : Answers Regs Rdma}
    (haccess : forall machineInfo, (answer (.accessInfoNew machineInfo)).isSome) (n' : Nat) :
    (s.touch located p n answer).2.inserted (n' * pageSize) =
      Function.update ((s.shared located).copies p) n ((s.shared located).view p n) n' := by
  have hinserted : (s.touch located p n answer).2.inserted =
      Function.update (s.memory p).inserted (n * pageSize) (s.touch located p n answer).1 :=
    touch_inserted _ _ _
  rw [hinserted, touch_view h haccess]
  by_cases hn : n' = n
  · rw [hn, Function.update_self, Function.update_self]
  · rw [Function.update_of_ne hn, Function.update_of_ne fun heq => hn (page_injective heq)]
    rfl

end Steps

/-!
## Registrations
-/

section Registrations

variable {lib : KernelLib Regs Rdma} {located : Rdma -> UInt64}
variable {s : Deployment Regs Rdma Page bufSize} {p : Process} {env : CallEnv Regs Rdma}

theorem naming_observed (frozen : Prop) {machines : Machines Regs Rdma bufSize}
    (act : NameAct HeapName Process (Mapping Nat FrameAddr)) (hact : ¬ act.Joins)
    (hstep : (sharedNames located s.machines).Step act (sharedNames located machines)) :
    Observed (SharedPages.Step frozen) (s.shared located)
      (act.map (s.shared located).withContents).observed
      ({ s with machines := machines }.shared located) :=
  Observed.single (.naming hact hstep)

theorem SoundMachine.registered {machine : UInt64} {s : ModuleState Regs Rdma bufSize}
    (h : SoundMachine lib located machine s) {heapBase : Nat}
    (hcaptures : Captures lib located bufSize machine env.caller heapBase)
    (hfree : s.Free env.caller.buf) {key : UInt64} {idGen : IdFactory} {rdmaMeta : Rdma}
    (hid : s.idGen.allocOneId = some (key, idGen))
    (hmeta : env.caller.answer .newFromDcTargetPool = some rdmaMeta) :
    SoundMachine lib located machine
      ({ s with idGen := idGen }.register lib key (env.registration heapBase rdmaMeta)) := by
  rcases IdFactory.allocOneId_toNat hid with ⟨_, hcur⟩
  have hkey : key.toNat ≤ idGen.curId.toNat := by
    rw [hcur]
  exact (h.issue hid).register hcaptures hkey hfree hmeta

theorem SoundMachine.setHandler {machine : UInt64} {s : ModuleState Regs Rdma bufSize}
    (h : SoundMachine lib located machine s) (self : Nat)
    (handler : Option (DmergeSyscallHandler Regs Rdma))
    (hhandler : forall key, handler.bind DmergeSyscallHandler.privateHeapHint = some key ->
      key.toNat ≤ s.idGen.curId.toNat) :
    SoundMachine lib located machine (s.setHandler self handler) := by
  have hhint : forall self' key, (s.setHandler self handler).hintOf self' = some key ->
      s.hintOf self' = some key ∨ key.toNat ≤ s.idGen.curId.toNat := by
    intro self' key hk
    rw [ModuleState.hintOf_setHandler] at hk
    by_cases hself : self' = self
    · rw [if_pos hself] at hk
      exact Or.inr (hhandler key hk)
    · rw [if_neg hself] at hk
      exact Or.inl hk
  exact h.shrink (s.setHandler self handler) rfl (fun _ _ hb => hb) le_rfl hhint

theorem MayRelease.sound {machine key : UInt64} {s s' : ModuleState Regs Rdma bufSize}
    (h : MayRelease key s s') (hs : SoundMachine lib located machine s) :
    SoundMachine lib located machine s' := by
  have hbundle : forall key' b, s'.bundle key' = some b -> s.bundle key' = some b := by
    intro key' b hb
    cases h.bundle with
    | inl hkept =>
        rw [hkept key'] at hb
        exact hb
    | inr hgone =>
        rw [hgone key'] at hb
        by_cases hkey : key' = key
        · rw [if_pos hkey] at hb
          cases hb
        · rwa [if_neg hkey] at hb
  have hhint : forall self key', s'.hintOf self = some key' ->
      s.hintOf self = some key' ∨ key'.toNat ≤ s'.idGen.curId.toNat := by
    intro self key' hk
    unfold ModuleState.hintOf at hk
    rw [h.handlers] at hk
    exact Or.inl hk
  exact hs.shrink s' h.pool hbundle (le_of_eq (by rw [h.idGen])) hhint

theorem SoundMachine.drop {machine : UInt64} {s : ModuleState Regs Rdma bufSize}
    (h : SoundMachine lib located machine s) (self : Nat) (env : Surroundings Regs Rdma) :
    SoundMachine lib located machine (runAlone lib self env dropHandler s).2.1 := by
  rw [runAlone_dropHandler]
  cases s.hintOf self with
  | none => exact h
  | some hint =>
      have hreleased : MayRelease hint s { s with service := s.service.unregister hint } :=
        (MayRelease.refl hint s).unregister
      exact hreleased.sound h

theorem hint_of_result (key : UInt64) : (Int64.ofInt key.toInt64.toInt).toUInt64 = key := by
  rw [Int64.ofInt_toInt]
  exact UInt64.toUInt64_toInt64 key

theorem register_shared (frozen : Prop) (hs : s.Sound lib located) (hin : s.Opened p)
    {heapBase : UInt64}
    (hcaptures : Captures lib located bufSize p.1 env.caller heapBase.toNat)
    (hfree : (s.machines p.1).Free env.caller.buf)
    {out : Outcome Int} {s' : ModuleState Regs Rdma bufSize}
    (hends : RegisterEnds lib (s.machines p.1) p.2 env heapBase.toNat out s') :
    SoundMachine lib located p.1 s' ∧
      Observed (SharedPages.Step frozen) (s.shared located)
        (s.tells p (.register heapBase) env out)
        ({ s with machines := Function.update s.machines p.1 s' }.shared located) := by
  cases hends with
  | @recalled key hhint =>
      refine ⟨hs p.1, ?_⟩
      have hobserved : s.tells p (.register heapBase) env (.returned key.toInt64.toInt) =
          [.named p (p.1, key) none] := by
        unfold Deployment.tells
        simp only [hint_of_result, hhint]
        rfl
      rw [hobserved, Function.update_eq_self]
      exact naming_observed frozen (.retell p (p.1, key)) id (retell_step hhint)
  | exhausted _ =>
      refine ⟨hs p.1, ?_⟩
      rw [Function.update_eq_self]
      exact Observed.refl _
  | @wasted msg key idGen _ hid =>
      exact ⟨(hs p.1).issue hid,
        naming_observed frozen (.waste (p.1, key)) id (waste_step hid)⟩
  | @registered key idGen rdmaMeta hhint hid hmeta =>
      have hsound := (hs p.1).registered hcaptures hfree hid hmeta
      have hnames := publish_step lib located hin hhint hid
        (env.registration heapBase.toNat rdmaMeta)
      have hmapping : bundleMapping located
          ((env.registration heapBase.toNat rdmaMeta).bundler lib) =
            capturedMapping p.1 env.caller.task heapBase.toNat :=
        mappingOf_captured hcaptures.aligned hcaptures.offsets
          (hcaptures.target rdmaMeta hmeta).1
      rw [hmapping] at hnames
      refine ⟨?_, ?_⟩
      · apply hsound.setHandler
        intro key' hk
        rcases Option.bind_eq_some_iff.mp hk with ⟨handler, hhandler, hkey'⟩
        rcases Option.map_eq_some_iff.mp hhandler with ⟨_, _, rfl⟩
        rw [← Option.some.inj hkey']
        exact hsound.key_le key _ ((ModuleState.bundle_register _ _ _ _ _).trans (if_pos rfl))
      · have hobserved : s.tells p (.register heapBase) env (.returned key.toInt64.toInt) =
            [.named p (p.1, key) (some (s.captured p env.caller.task heapBase.toNat))] := by
          unfold Deployment.tells
          simp only [hint_of_result, hhint]
          rfl
        rw [hobserved]
        exact naming_observed frozen (.publish p (p.1, key) _) id hnames

theorem MayRelease.observed (located : Rdma -> UInt64) (frozen : Prop) {machine key : UInt64}
    {r s' : ModuleState Regs Rdma bufSize} (h : MayRelease key r s')
    (hr : s.machines machine = r)
    (hfree : forall self, r.hintOf self ≠ some key) :
    Observed (SharedPages.Step frozen) (s.shared located) []
      ({ s with machines := Function.update s.machines machine s' }.shared located) := by
  subst hr
  have hhint : forall self, s'.hintOf self = (s.machines machine).hintOf self := by
    intro self
    unfold ModuleState.hintOf
    rw [h.handlers]
  have hpulled : forall self, s'.pulledOf self = (s.machines machine).pulledOf self := by
    intro self
    unfold ModuleState.pulledOf
    rw [h.handlers]
  cases h.bundle with
  | inl hkept =>
      have hnames : sharedNames located (Function.update s.machines machine s') =
          sharedNames located s.machines :=
        NameTable.ext (published_same _ _ hkept) (spent_same _ _ h.idGen) (owned_same _ _ hhint)
          (joined_same _ _ hpulled)
      unfold Deployment.shared
      rw [hnames]
      exact Observed.refl _
  | inr hgone =>
      exact naming_observed frozen (.reclaim (machine, key)) id
        (reclaim_step hfree h.idGen h.handlers hgone)

theorem registerRemote_shared (frozen : Prop) (hs : s.Sound lib located)
    {heapBase : UInt64}
    (hcaptures : Captures lib located bufSize p.1 env.caller heapBase.toNat)
    (hfree : (s.machines p.1).Free env.caller.buf) {s' : ModuleState Regs Rdma bufSize}
    (hends : RemoteEnds lib (s.machines p.1) env heapBase.toNat s') :
    SoundMachine lib located p.1 s' ∧
      Observed (SharedPages.Step frozen) (s.shared located) []
        ({ s with machines := Function.update s.machines p.1 s' }.shared located) := by
  cases hends with
  | exhausted =>
      refine ⟨hs p.1, ?_⟩
      rw [Function.update_eq_self]
      exact Observed.refl _
  | @wasted key idGen hid =>
      exact ⟨(hs p.1).issue hid,
        naming_observed frozen (.waste (p.1, key)) id (waste_step hid)⟩
  | @lent key idGen rdmaMeta _ hid hmeta hlent =>
      have hsound := (hs p.1).registered hcaptures hfree hid hmeta
      have hnames := lend_step lib located hid
        (env.registration heapBase.toNat rdmaMeta)
      have hunowned : forall self, (s.machines p.1).hintOf self ≠ some key := by
        intro self hself
        have hle := (hs p.1).hint_le self key hself
        rw [(IdFactory.allocOneId_toNat hid).1] at hle
        exact Nat.not_succ_le_self _ hle
      have hlend := naming_observed frozen (.lend (p.1, key) _) id hnames
      generalize hregistered : ({ s.machines p.1 with idGen := idGen }.register lib key
        (env.registration heapBase.toNat rdmaMeta)) = registered at hsound hlent hlend
      have hfree' : forall self, registered.hintOf self ≠ some key := by
        rw [← hregistered]
        exact hunowned
      have hlater := hlent.observed located frozen (s := { s with
        machines := Function.update s.machines p.1 registered })
        (Function.update_self p.1 registered s.machines) hfree'
      simp only [Function.update_idem] at hlater
      exact ⟨hlent.sound hsound, hlend.trans hlater⟩

end Registrations

/-!
## Pulls
-/

def prefetched (d : HeapDescriptor Regs Rdma) (eagerFetch : Bool) (n : Nat) : Bool :=
  match lastCovering (n * pageSize) d.vma with
  | some m => decide (n * pageSize ∈ fetchedAddrs eagerFetch m)
  | none => false

section Pulls

variable {lib : KernelLib Regs Rdma} {located : Rdma -> UInt64}
variable {s : Deployment Regs Rdma Page bufSize} {p : Process} {env : CallEnv Regs Rdma}

theorem prefetched_lazy (d : HeapDescriptor Regs Rdma) (n : Nat) :
    prefetched d false n = false := by
  unfold prefetched
  split
  · exact decide_eq_false List.not_mem_nil
  · rfl

theorem lastCovering_isSome (va : Nat) (vmas : List VMADescriptor) :
    (lastCovering va vmas).isSome = vmas.any fun m => decide (m.Covers va) := by
  unfold lastCovering
  rw [List.isSome_find?]
  exact List.any_reverse

theorem loads_reload {answer : Answers Regs Rdma} {d : HeapDescriptor Regs Rdma}
    {eagerFetch : Bool} {mem' : ProcessMemory Page}
    (h : Loads (s.reader located answer) d (fetchedAddrs eagerFetch) (s.memory p) mem')
    (n : Nat) :
    mem'.inserted (n * pageSize) =
      (s.shared located).reload p (mappingOf located d) (prefetched d eagerFetch) n := by
  have hcovers : (mappingOf located d).covers n = (lastCovering (n * pageSize) d.vma).isSome :=
    (lastCovering_isSome _ _).symm
  have hpage : (s.reader located answer).pageAt d (n * pageSize) =
      (mappingOf located d).contents s.frames n := by
    unfold Reader.pageAt mappedPage Mapping.contents mappingOf
    simp only [Option.map_map]
    rfl
  rw [h]
  unfold SharedPages.reload prefetched
  rw [hcovers]
  cases lastCovering (n * pageSize) d.vma with
  | none => rfl
  | some m =>
      rw [Option.isSome_some, if_pos rfl]
      simp only [decide_eq_true_eq, hpage]
      rfl

theorem offered_attach (hs : s.Sound lib located) (hsize : bufSize < 2 ^ 64) (hin : s.Opened p)
    {key target : UInt64} {d : HeapDescriptor Regs Rdma}
    (hoffers : Offers lib s.machines target key d) (info : AccessInfo Rdma) :
    (sharedNames located s.machines).Step (.attach p (target, key) (mappingOf located d))
      (sharedNames located (Function.update s.machines p.1
        ((s.machines p.1).updateHandler p.2 fun h =>
          { h with publicHeaps := h.publicHeaps ++
            [{ id := key, descriptor := d, accessInfo := info }] }))) := by
  rcases ((hs target).offers_iff hsize key d).mp hoffers with ⟨b, hb, hd⟩
  have hlocated : located d.machineInfo = target := by
    rw [hd]
    exact ((hs target).deliverable key b hb).located
  exact attach_step hin hb { id := key, descriptor := d, accessInfo := info } rfl hd hlocated

theorem PullLeaves.attaches (hs : s.Sound lib located) (hsize : bufSize < 2 ^ 64)
    (hin : s.Opened p) {key target : UInt64} {eagerFetch : Bool}
    {r : Outcome Int × (Session Regs Rdma bufSize × ProcessMemory Page)}
    (hends : PullLeaves lib s.machines p.1 p.2 key target env
      (s.reader located env.caller.answer) eagerFetch (s.memory p) r)
    (hret : r.1 = .returned 0) :
    exists x, (sharedNames located s.machines).Step (.attach p (target, key) x)
      (sharedNames located r.2.1.machines) := by
  cases hends with
  | failed hout hmachines hcause => exact absurd hret hout
  | @pulled d info st mem' hoffers hmachines hloads =>
      rw [hmachines]
      exact ⟨_, offered_attach hs hsize hin hoffers info⟩

theorem pull_shared (frozen : Prop) (hs : s.Sound lib located) (hsize : bufSize < 2 ^ 64)
    (hin : s.Opened p) {key target : UInt64} {eagerFetch : Bool}
    (hfrozen : frozen -> eagerFetch = false)
    {r : Outcome Int × (Session Regs Rdma bufSize × ProcessMemory Page)}
    (hends : PullLeaves lib s.machines p.1 p.2 key target env
      (s.reader located env.caller.answer) eagerFetch (s.memory p) r) :
    (forall machine, SoundMachine lib located machine (r.2.1.machines machine)) ∧
      Observed (SharedPages.Step frozen) (s.shared located)
        (if r.1 = .returned 0 then [.joined p (target, key)] else [])
        ({ s with
            machines := r.2.1.machines
            memory := Function.update s.memory p r.2.2 }.shared located) := by
  cases hends with
  | failed hout hmachines hcause =>
      simp only
      rw [if_neg hout, hmachines, Function.update_eq_self]
      exact ⟨hs, Observed.refl _⟩
  | @pulled d info st mem' hoffers hmachines hloads =>
      simp only [if_true]
      rw [hmachines]
      have hnames := offered_attach hs hsize hin hoffers info
      refine ⟨sound_update hs ?_, ?_⟩
      · apply (hs p.1).setHandler
        intro key' hk
        rw [Option.bind_map] at hk
        exact (hs p.1).hint_le p.2 key' hk
      · rw [shared_update]
        have hreload : (fun n => mem'.inserted (n * pageSize)) =
            (s.shared located).reload p (mappingOf located d) (prefetched d eagerFetch) :=
          funext fun n => loads_reload hloads n
        rw [hreload]
        refine Observed.single (.attach (prefetched d eagerFetch) hnames fun hf n _ => ?_)
        rw [hfrozen hf]
        exact prefetched_lazy d n

theorem tells_pull (heapHint machineId : UInt32) (eagerFetch : Bool) (out : Outcome Int) :
    s.tells p (.pull heapHint machineId eagerFetch) env out =
      if out = .returned 0 then [.joined p (machineId.toUInt64, heapHint.toUInt64)] else [] := by
  cases out with
  | panicked msg => rfl
  | returned result =>
      unfold Deployment.tells
      by_cases hresult : result = 0
      · rw [if_pos (by rw [hresult])]
        simp only [hresult, if_true]
      · rw [if_neg fun h => hresult (Outcome.returned.inj h)]
        simp only [hresult, if_false]

end Pulls

/-!
## Runs
-/

section Refinement

variable {lib : KernelLib Regs Rdma} {located : Rdma -> UInt64}
variable {s s' : Deployment Regs Rdma Page bufSize}

theorem command_shared (frozen : Prop) (hs : s.Sound lib located) (hsize : bufSize < 2 ^ 64)
    {p : Process} {req : Request} {env : CallEnv Regs Rdma} (hin : s.Opened p)
    (hfits : env.Fits lib) (hfree : (s.machines p.1).Free env.caller.buf)
    (hsound : (DeployAct.command p req env : DeployAct Regs Rdma Page).Sound lib located bufSize)
    (hfrozen : frozen -> s.Frozen located (.command p req env)) :
    (forall machine, SoundMachine lib located machine
      ((s.runCommand lib located p req env).2.1.machines machine)) ∧
      Observed (SharedPages.Step frozen) (s.shared located)
        (s.tells p req env (s.runCommand lib located p req env).1)
        ({ s with
            machines := (s.runCommand lib located p req env).2.1.machines
            memory := Function.update s.memory p
              (s.runCommand lib located p req env).2.2 }.shared located) := by
  cases req with
  | register heapBase =>
      have hregister : exists out s' st,
          s.runCommand lib located p (.register heapBase) env = (out, (st, s.memory p)) ∧
            st.machines = Function.update s.machines p.1 s' ∧
              RegisterEnds lib (s.machines p.1) p.2 env heapBase.toNat out s' :=
        run_register_process s.machines heapBase (s.memory p)
      rcases hregister with ⟨out, s', st, hrun, hst, hends⟩
      rcases register_shared frozen hs hin hsound hfree hends with ⟨hmachine, hobserved⟩
      rw [hrun, hst, Function.update_eq_self]
      exact ⟨sound_update hs hmachine, hobserved⟩
  | pull heapHint machineId eagerFetch =>
      rw [tells_pull]
      have hreads : ReadsFor (s.reader located env.caller.answer) env :=
        ⟨rfl, fun machineInfo => rfl⟩
      exact pull_shared frozen hs hsize hin hfrozen
        (run_syscallRmap_process hreads hfits s.machines heapHint.toUInt64 machineId.toUInt64
          eagerFetch (s.memory p))
  | registerRemote heapBase machineId =>
      have hregister : exists out s' st,
          s.runCommand lib located p (.registerRemote heapBase machineId) env =
            (out, (st, s.memory p)) ∧ st.machines = Function.update s.machines p.1 s' ∧
              RemoteEnds lib (s.machines p.1) env heapBase.toNat s' :=
        run_registerRemote_process s.machines heapBase machineId (s.memory p)
      rcases hregister with ⟨out, s', st, hrun, hst, hends⟩
      rcases registerRemote_shared frozen hs hsound hfree hends with ⟨hmachine, hobserved⟩
      have hsilent : s.tells p (.registerRemote heapBase machineId) env out = [] := by
        cases out <;> rfl
      rw [hrun, hst, Function.update_eq_self, hsilent]
      exact ⟨sound_update hs hmachine, hobserved⟩

theorem step_shared (frozen : Prop) (hsize : bufSize < 2 ^ 64) {act : DeployAct Regs Rdma Page}
    {now : List (DeployObs Page)} (hs : s.Sound lib located)
    (hsound : act.Sound lib located bufSize) (hfrozen : frozen -> s.Frozen located act)
    (hstep : s.step lib located act = some (s', now)) :
    s'.Sound lib located ∧
      Observed (SharedPages.Step frozen) (s.shared located) now (s'.shared located) := by
  cases act with
  | openHandle p =>
      simp only [Deployment.step] at hstep
      split at hstep
      · cases hstep
      · next hout =>
          cases hstep
          have hnone : (s.machines p.1).handlers p.2 = none :=
            Option.not_isSome_iff_eq_none.mp hout
          refine ⟨sound_update hs ((hs p.1).setHandler p.2 _ fun key hk => by cases hk), ?_⟩
          rw [shared_update]
          exact Observed.single (.enter (enter_step hnone))
  | command p req env =>
      simp only [Deployment.step] at hstep
      split at hstep
      · next hready =>
          cases hstep
          exact command_shared frozen hs hsize hready.1 hready.2.1 hready.2.2 hsound hfrozen
      · cases hstep
  | touch p n answer =>
      simp only [Deployment.step] at hstep
      split at hstep
      · next hin =>
          cases hstep
          have hcopies : (fun n' => (s.touch located p n answer).2.inserted (n' * pageSize)) =
              Function.update ((s.shared located).copies p) n ((s.shared located).view p n) :=
            funext fun n' => copies_touch hin hsound n'
          refine ⟨hs, ?_⟩
          rw [touch_view hin hsound, shared_update, hcopies]
          exact Observed.single (.read p n (isSome_joined hin))
      · cases hstep
  | store p n v answer =>
      simp only [Deployment.step] at hstep
      split at hstep
      · next hready =>
          cases hstep
          have hview : ((s.shared located).view p n).isSome := by
            rw [← touch_view hready.1 hsound]
            exact hready.2
          have hcopies : (fun n' => Function.update (s.touch located p n answer).2.inserted
              (n * pageSize) (some v) (n' * pageSize)) =
                Function.update ((s.shared located).copies p) n (some v) := by
            funext n'
            by_cases hn : n' = n
            · rw [hn, Function.update_self, Function.update_self]
            · rw [Function.update_of_ne hn,
                Function.update_of_ne fun heq => hn (page_injective heq),
                copies_touch hready.1 hsound, Function.update_of_ne hn]
          refine ⟨hs, ?_⟩
          rw [shared_update, hcopies]
          exact Observed.single (.store p n v hview hfrozen)
      · cases hstep
  | write frame v =>
      cases hstep
      exact ⟨hs, Observed.single (.write frame v hfrozen)⟩
  | closeHandle p env =>
      simp only [Deployment.step] at hstep
      split at hstep
      · next hin =>
          cases hstep
          refine ⟨sound_update hs ?_, naming_observed frozen (.leave p) id
            (leave_step hin env.caller)⟩
          exact ((hs p.1).drop p.2 env.caller).setHandler p.2 none fun key hk => by cases hk
      · cases hstep

theorem sound_init (lib : KernelLib Regs Rdma) (located : Rdma -> UInt64) (pool : Pool bufSize)
    (frames : FrameAddr -> Page) :
    (Deployment.init pool frames : Deployment Regs Rdma Page bufSize).Sound lib located :=
  fun machine => soundMachine_init lib located machine pool

theorem pull_returns_iff (hs : s.Sound lib located) (hsize : bufSize < 2 ^ 64) {p : Process}
    {env : CallEnv Regs Rdma} (hfits : env.Fits lib)
    (hconn : Kernel.Connected lib env.caller.answer) (heapHint machineId : UInt32)
    (eagerFetch : Bool) :
    (s.runCommand lib located p (.pull heapHint machineId eagerFetch) env).1 = .returned 0 <->
      ((s.shared located).names.published (machineId.toUInt64, heapHint.toUInt64)).isSome := by
  have hreads : ReadsFor (s.reader located env.caller.answer) env :=
    ⟨rfl, fun machineInfo => rfl⟩
  have hends : PullLeaves lib s.machines p.1 p.2 heapHint.toUInt64 machineId.toUInt64 env
      (s.reader located env.caller.answer) eagerFetch (s.memory p)
      (s.runCommand lib located p (.pull heapHint machineId eagerFetch) env) :=
    run_syscallRmap_process hreads hfits s.machines heapHint.toUInt64 machineId.toUInt64
      eagerFetch (s.memory p)
  have hpublished : ((s.shared located).names.published
      (machineId.toUInt64, heapHint.toUInt64)).isSome =
        ((s.machines machineId.toUInt64).bundle heapHint.toUInt64).isSome :=
    Option.isSome_map
  rw [hpublished]
  have hoffers := (hs machineId.toUInt64).offers_iff hsize heapHint.toUInt64
  generalize s.runCommand lib located p (.pull heapHint machineId eagerFetch) env = r at hends
  cases hends with
  | failed hout hmachines hcause =>
      constructor
      · exact fun h => absurd h hout
      · intro h
        rcases Option.isSome_iff_exists.mp h with ⟨b, hb⟩
        exact absurd ((hoffers _).mpr ⟨b, hb, rfl⟩) (hcause hconn _)
  | pulled hoffered hmachines hloads =>
      constructor
      · intro _
        rcases (hoffers _).mp hoffered with ⟨b, hb, _⟩
        rw [hb]
        rfl
      · exact fun _ => rfl

end Refinement

/-- As long as no shared frame is written, no process writes to its pages and nothing is
prefetched, a deployment cannot be told from a store of snapshots: what a process reads is
what the first heap that it has pulled and that has the page held when it was registered. -/
theorem deployment_snapshots (lib : KernelLib Regs Rdma) (located : Rdma -> UInt64)
    (pool : Pool bufSize) (frames : FrameAddr -> Page) (hsize : bufSize < 2 ^ 64)
    {acts : List (DeployAct Regs Rdma Page)} {s : Deployment Regs Rdma Page bufSize}
    {trace : List (DeployObs Page)}
    (hfrozen : RunMeets (fun s act => s.step lib located act)
      (fun s act => act.Sound lib located bufSize ∧ s.Frozen located act)
      (Deployment.init pool frames) acts)
    (hrun : runFrom (fun s act => s.step lib located act) (Deployment.init pool frames) acts =
      some (s, trace)) :
    Observed Snapshots.Step
      ((Deployment.init pool frames : Deployment Regs Rdma Page bufSize).shared
        located).snapshots
      (trace.map (SharedObs.map Prod.snd)) (s.shared located).snapshots := by
  have hstep : forall (s : Deployment Regs Rdma Page bufSize) act s' now,
      s.Sound lib located -> act.Sound lib located bufSize ∧ s.Frozen located act ->
        s.step lib located act = some (s', now) -> s'.Sound lib located ∧
          Observed (SharedPages.Step True) (s.shared located) now (s'.shared located) :=
    fun s act s' now hs hact hnext =>
      step_shared True hsize hs hact.1 (fun _ => hact.2) hnext
  rcases runFrom_observed hstep (sound_init lib located pool frames) hfrozen hrun with
    ⟨_, hobserved⟩
  refine SharedPages.Step.snapshots_of_run hobserved ?_
  intro p a v hin _
  cases hin

/-!
## A run
-/

/-- A frame is written; then a process of machine 1 registers its heap, one of machine 3
pulls it and touches a page, and the first one closes its handle. -/
def sharedActs : List (DeployAct UInt64 UInt64 Nat) :=
  [.write (1, 28672) 5, .openHandle (1, 0), .command (1, 0) (.register 4096) smoothEnv,
    .openHandle (3, 0), .command (3, 0) (.pull 1 1 false) smoothEnv,
    .touch (3, 0) 1 smoothEnv.caller.answer, .closeHandle (1, 0) smoothEnv,
    .touch (3, 0) 1 smoothEnv.caller.answer]

/-- What is observed, without the mappings. -/
def readable : DeployObs Nat -> Process × Option Nat
  | .named p n _ => (p, some n.2.toNat)
  | .joined p n => (p, some n.2.toNat)
  | .read p _ v => (p, v)

def smallDeployment : Deployment UInt64 UInt64 Nat 128 :=
  Deployment.init (Pool.zeroed 128) fun _ => 0

theorem observed_sharedActs :
    (runFrom (fun s act => s.step plainLib (fun _ => 1) act) smallDeployment sharedActs).map
      (fun r => r.2.map readable) =
        some [((1, 0), some 1), ((3, 0), some 1), ((3, 0), some 5), ((3, 0), some 5)] := by
  decide +kernel

theorem captures_smallTask :
    Captures plainLib (fun _ => 1) 128 1 smoothEnv.caller 4096 where
  aligned := by
    unfold PageAligned pageSize
    decide
  offsets := by
    intro vma hvma va _ hcovers _
    have hsmall : vma = { vmStart := 4096, vmEnd := 12288, vmFlags := 0, vmFile := 0 } :=
      List.mem_singleton.mp hvma
    subst hsmall
    have hend : va < 12288 := hcovers.2
    omega
  target rdmaMeta _ := ⟨rfl, (fits_smallTask rdmaMeta 4096).1⟩

theorem smallDeployment_shares (frame : FrameAddr) :
    ¬ (smallDeployment.shared fun _ => 1).Shares frame := by
  intro h
  cases h with
  | inl hpublished =>
      rcases hpublished with ⟨n, x, a, hx, _⟩
      cases hx
  | inr hjoined =>
      rcases hjoined with ⟨p, qs, q, a, hqs, _, _⟩
      cases hqs

theorem sharedActs_frozen :
    RunMeets (fun s act => s.step plainLib (fun _ => 1) act)
      (fun s act => act.Sound plainLib (fun _ => 1) 128 ∧ s.Frozen (fun _ => 1) act)
      smallDeployment sharedActs := by
  refine ⟨⟨True.intro, smallDeployment_shares _⟩, fun s1 _ _ => ?_⟩
  refine ⟨⟨True.intro, True.intro⟩, fun s2 _ _ => ?_⟩
  refine ⟨⟨captures_smallTask, True.intro⟩, fun s3 _ _ => ?_⟩
  refine ⟨⟨True.intro, True.intro⟩, fun s4 _ _ => ?_⟩
  refine ⟨⟨True.intro, rfl⟩, fun s5 _ _ => ?_⟩
  refine ⟨⟨fun _ => rfl, True.intro⟩, fun s6 _ _ => ?_⟩
  refine ⟨⟨True.intro, True.intro⟩, fun s7 _ _ => ?_⟩
  exact ⟨⟨fun _ => rfl, True.intro⟩, fun s8 _ _ => True.intro⟩

theorem deployment_snapshots_shared :
    exists s trace, runFrom (fun s act => s.step plainLib (fun _ => 1) act) smallDeployment
      sharedActs = some (s, trace) ∧
        trace.map readable =
          [((1, 0), some 1), ((3, 0), some 1), ((3, 0), some 5), ((3, 0), some 5)] ∧
        Observed Snapshots.Step (smallDeployment.shared fun _ => 1).snapshots
          (trace.map (SharedObs.map Prod.snd)) (s.shared fun _ => 1).snapshots := by
  rcases Option.map_eq_some_iff.mp observed_sharedActs with ⟨⟨s, trace⟩, hrun, htrace⟩
  exact ⟨s, trace, hrun, htrace,
    deployment_snapshots plainLib (fun _ => 1) (Pool.zeroed 128) (fun _ => 0) (by decide)
      sharedActs_frozen hrun⟩

end Kernel
end Dmerge
