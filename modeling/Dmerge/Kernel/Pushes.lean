import Dmerge.Kernel.Buffers

/-!
# Repeated pushes

A handle registers its heap once.  Every later push on the handle returns the
hint of the first push, and the descriptor served under it stays the capture
made during the first push.
-/

namespace Dmerge
namespace Kernel

open Foundation Memory Descriptors Producer

variable {Regs Rdma : Type} {bufSize : Nat}

/-!
## The first push of a handle
-/

/-- The first push of a handle: its base, and what it registered. -/
structure FirstPush (Regs Rdma : Type) where
  base : UInt64
  finished : Bool
  reg : Option (UInt64 × Registration Regs Rdma)

def firstPushStep (self : Nat) (push : Option (FirstPush Regs Rdma)) :
    Event Regs Rdma -> Option (FirstPush Regs Rdma)
  | .started self' (.register base) =>
      if self' = self ∧ push.isNone then
        some { base := base, finished := false, reg := none }
      else push
  | .registered self' key reg =>
      if self' = self then
        push.map fun f =>
          if f.finished ∨ f.reg.isSome then f else { f with reg := some (key, reg) }
      else push
  | .finished self' _ _ =>
      if self' = self then push.map fun f => { f with finished := true } else push
  | _ => push

/-- The first push of a handle in a run. -/
def firstPush (past : List (Event Regs Rdma)) (self : Nat) : Option (FirstPush Regs Rdma) :=
  past.foldl (firstPushStep self) none

theorem firstPush_snoc (past : List (Event Regs Rdma)) (e : Event Regs Rdma) (self : Nat) :
    firstPush (past ++ [e]) self = firstPushStep self (firstPush past self) e := by
  unfold firstPush
  rw [List.foldl_append]
  rfl

theorem registered_of_firstPush {past : List (Event Regs Rdma)} {self : Nat}
    {f : FirstPush Regs Rdma} {key : UInt64} {reg : Registration Regs Rdma}
    (hf : firstPush past self = some f) (hreg : f.reg = some (key, reg)) :
    Event.registered self key reg ∈ past := by
  induction past using List.reverseRecOn generalizing f with
  | nil => cases hf
  | append_singleton past e ih =>
      rw [firstPush_snoc] at hf
      have hold : forall f', firstPush past self = some f' -> f'.reg = some (key, reg) ->
          Event.registered self key reg ∈ past ++ [e] :=
        fun f' hf' hreg' => List.mem_append_left _ (ih hf' hreg')
      cases e with
      | started self' req =>
          cases req with
          | register base =>
              simp only [firstPushStep] at hf
              split at hf
              · cases hf
                cases hreg
              · exact hold f hf hreg
          | pull => exact hold f hf hreg
          | registerRemote => exact hold f hf hreg
      | registered self' key' reg' =>
          simp only [firstPushStep] at hf
          split at hf
          · next hself =>
              rcases Option.map_eq_some_iff.mp hf with ⟨f', hf', hstep⟩
              split at hstep
              · exact hold f' hf' (by rw [hstep]; exact hreg)
              · rw [← hstep] at hreg
                cases hreg
                rw [hself]
                exact List.mem_append_right _ (List.mem_singleton.mpr rfl)
          · exact hold f hf hreg
      | finished self' req result =>
          simp only [firstPushStep] at hf
          split at hf
          · rcases Option.map_eq_some_iff.mp hf with ⟨f', hf', hstep⟩
            rw [← hstep] at hreg
            exact hold f' hf' hreg
          · exact hold f hf hreg
      | opened => exact hold f hf hreg
      | issued => exact hold f hf hreg
      | adopted => exact hold f hf hreg
      | unregistered => exact hold f hf hreg
      | closed => exact hold f hf hreg

/-!
## The invariant
-/

def PushHand (f : FirstPush Regs Rdma) : KeyInHand -> Prop
  | .held key heapStart => exists reg, f.reg = some (key, reg) ∧ reg.heapStartAddr = heapStart
  | _ => f.reg = none

structure PushOwned (lib : KernelLib Regs Rdma) (m : Machine Regs Rdma bufSize)
    (past : List (Event Regs Rdma)) : Prop where
  owned : MachineOwned lib (fun _ _ _ => True) m past
  unopened : forall self, m.nextHandle ≤ self -> firstPush past self = none
  unpushed : forall self, (m.state.handlers self).isSome -> m.state.hintOf self = none ->
    (forall base p, m.running self ≠ some (.register base, p)) -> firstPush past self = none
  pushing : forall self base p, m.state.hintOf self = none ->
    m.running self = some (.register base, p) ->
      exists f, firstPush past self = some f ∧ f.base = base ∧ f.finished = false ∧
        PushHand f (inHand past self)
  pushed : forall self key, m.state.hintOf self = some key -> exists f reg,
    firstPush past self = some f ∧ f.reg = some (key, reg) ∧
      reg.heapStartAddr = f.base.toNat

def KernelOp.Registers : KernelOp Regs Rdma -> Prop
  | .addBundler _ _ _ => True
  | _ => False

section Answers

variable {lib : KernelLib Regs Rdma} {s : ModuleState Regs Rdma bufSize}
variable {past : List (Event Regs Rdma)} {self self' : Nat}
variable {req : Request} {allowed : (o : KernelOp Regs Rdma) -> o.Res -> Prop}

theorem firstPush_serve (env : Surroundings Regs Rdma) (o : KernelOp Regs Rdma)
    (hother : self' ≠ self ∨ ¬ o.Registers) :
    firstPush (past ++ (serve lib self env s o).2.2) self' = firstPush past self' := by
  cases o using KernelOp.byKind with
  | external o ho =>
      rw [serve_external lib self env s ho]
      simp only [List.append_nil]
  | allocOneId =>
      cases hid : s.idGen.allocOneId with
      | none =>
          rw [serve_allocOneId_none lib self env s hid]
          simp only [List.append_nil]
      | some next =>
          rw [serve_allocOneId_some lib self env s hid]
          exact firstPush_snoc _ _ _
  | addBundler key heapStart rdmaMeta =>
      rcases hother with hne | hnone
      · simp only [serve, firstPush_snoc, firstPushStep, if_neg hne.symm]
      · exact absurd True.intro hnone
  | unregister key => exact firstPush_snoc _ _ _
  | setPrivateHint hint => exact firstPush_snoc _ _ _
  | getPrivateHint => simp only [serve, List.append_nil]
  | pushPublicHeap heap => simp only [serve, List.append_nil]
  | queryDescriptorBuf key => simp only [serve, List.append_nil]

theorem hint_next {o : KernelOp Regs Rdma} {r : o.Res} {g g' : OwnerView}
    (hnext : (ownerProtocol req allowed).next g o r g')
    (hkept : forall hint, o ≠ .setPrivateHint hint) : g'.hint = g.hint := by
  cases o using KernelOp.byKind with
  | external o ho =>
      have hsame : g' = g := by
        cases o <;> first | exact hnext.2 | exact ho.elim
      rw [hsame]
  | getPrivateHint => rw [show g' = g from hnext.2]
  | queryDescriptorBuf key' => rw [show g' = g from hnext.2]
  | pushPublicHeap heap => rw [show g' = g from hnext]
  | allocOneId =>
      cases r with
      | none => rw [show g' = g from hnext]
      | some id => rw [show g' = { g with inHand := .allocated id } from hnext]
  | addBundler key heapStart rdmaMeta =>
      rw [show g' = { g with inHand := .held key heapStart } from hnext]
  | setPrivateHint hint => exact absurd rfl (hkept hint)
  | unregister key => rw [show g' = { g with inHand := .idle } from hnext]

theorem pushHand_next {base : UInt64} (env : Surroundings Regs Rdma)
    (o : KernelOp Regs Rdma) {f : FirstPush Regs Rdma} {g g' : OwnerView}
    (hmay : (ownerProtocol (.register base) allowed).may g o)
    (hnext : (ownerProtocol (.register base) allowed).next g o (serve lib self env s o).1 g')
    (hhint : g'.hint = none)
    (hf : firstPush past self = some f) (hrunning : f.finished = false)
    (hhand : PushHand f g.inHand) :
    exists f', firstPush (past ++ (serve lib self env s o).2.2) self = some f' ∧
      f'.base = f.base ∧ f'.finished = false ∧ PushHand f' g'.inHand := by
  cases o using KernelOp.byKind with
  | addBundler key heapStart rdmaMeta =>
      have hallocated : g.inHand = .allocated key := hmay
      rw [hallocated] at hhand
      have hnone : f.reg = none := hhand
      refine ⟨{ f with reg := some (key,
        { heapStartAddr := heapStart, task := env.task, rdmaMeta := rdmaMeta, buf := env.buf }) },
        ?_, rfl, hrunning, ?_⟩
      · simp only [serve, firstPush_snoc, firstPushStep, if_pos, hf, Option.map_some, hrunning,
          hnone, Option.isSome_none, Bool.false_eq_true, or_self, if_false]
      · rw [show g' = { g with inHand := .held key heapStart } from hnext]
        exact ⟨_, rfl, rfl⟩
  | setPrivateHint hint =>
      rw [show g' = { hint := some hint, inHand := .idle } from hnext] at hhint
      cases hhint
  | unregister key =>
      rcases hmay with ⟨⟨base', machineId, hreq⟩, _⟩
      cases hreq
  | allocOneId =>
      refine ⟨f, ?_, rfl, hrunning, ?_⟩
      · rw [firstPush_serve env _ (Or.inr id), hf]
      · have hidle : g.inHand = .idle := hmay
        rw [hidle] at hhand
        have hnone : f.reg = none := hhand
        cases hid : s.idGen.allocOneId with
        | none =>
            rw [serve_allocOneId_none lib self env s hid] at hnext
            rw [show g' = g from hnext, hidle]
            exact hnone
        | some next =>
            rw [serve_allocOneId_some lib self env s hid] at hnext
            rw [show g' = { g with inHand := .allocated next.1 } from hnext]
            exact hnone
  | external o ho =>
      have hsame : g' = g := by
        cases o <;> first | exact hnext.2 | exact ho.elim
      refine ⟨f, ?_, rfl, hrunning, by rwa [hsame]⟩
      rw [firstPush_serve env _ (Or.inr fun hreg => by cases o <;> first | exact hreg | exact ho), hf]
  | getPrivateHint =>
      refine ⟨f, ?_, rfl, hrunning, by rwa [show g' = g from hnext.2]⟩
      rw [firstPush_serve env _ (Or.inr id), hf]
  | queryDescriptorBuf key' =>
      refine ⟨f, ?_, rfl, hrunning, by rwa [show g' = g from hnext.2]⟩
      rw [firstPush_serve env _ (Or.inr id), hf]
  | pushPublicHeap heap =>
      refine ⟨f, ?_, rfl, hrunning, by rwa [show g' = g from hnext]⟩
      rw [firstPush_serve env _ (Or.inr id), hf]

theorem firstPush_registered (env : Surroundings Regs Rdma) (o : KernelOp Regs Rdma)
    {f : FirstPush Regs Rdma} (hf : firstPush past self = some f) (hreg : f.reg.isSome) :
    firstPush (past ++ (serve lib self env s o).2.2) self = some f := by
  cases o with
  | addBundler key heapStart rdmaMeta =>
      simp only [serve, firstPush_snoc, firstPushStep, if_pos, hf, Option.map_some, hreg,
        or_true]
  | _ => rw [firstPush_serve env _ (Or.inr id), hf]

end Answers

/-!
## One step of the machine
-/

section Machines

variable {lib : KernelLib Regs Rdma} {m m' : Machine Regs Rdma bufSize}
variable {past now : List (Event Regs Rdma)}

theorem pushOwned_init (pool : Pool bufSize) :
    PushOwned lib (Machine.init pool : Machine Regs Rdma bufSize) [] where
  owned := machineOwned_init pool
  unopened _ _ := rfl
  unpushed _ _ _ _ := rfl
  pushing _ _ _ _ h := by cases h
  pushed _ _ h := by cases h

structure PushOf (m : Machine Regs Rdma bufSize) (past : List (Event Regs Rdma)) (handle : Nat) :
    Prop where
  unpushed : (m.state.handlers handle).isSome -> m.state.hintOf handle = none ->
    (forall base p, m.running handle ≠ some (.register base, p)) -> firstPush past handle = none
  pushing : forall base p, m.state.hintOf handle = none ->
    m.running handle = some (.register base, p) ->
      exists f, firstPush past handle = some f ∧ f.base = base ∧ f.finished = false ∧
        PushHand f (inHand past handle)
  pushed : forall key, m.state.hintOf handle = some key -> exists f reg,
    firstPush past handle = some f ∧ f.reg = some (key, reg) ∧
      reg.heapStartAddr = f.base.toNat

theorem PushOwned.handle (h : PushOwned lib m past) (self : Nat) : PushOf m past self where
  unpushed := h.unpushed self
  pushing := h.pushing self
  pushed := h.pushed self

theorem pushOwned_of_handles (howned : MachineOwned lib (fun _ _ _ => True) m past)
    (hunopened : forall self, m.nextHandle ≤ self -> firstPush past self = none)
    (h : forall self, PushOf m past self) : PushOwned lib m past where
  owned := howned
  unopened := hunopened
  unpushed self := (h self).unpushed
  pushing self := (h self).pushing
  pushed self := (h self).pushed

theorem PushOf.keep {past' : List (Event Regs Rdma)} {self : Nat} (h : PushOf m past self)
    (hopen : (m'.state.handlers self).isSome ->
      (m.state.handlers self).isSome ∨ firstPush past self = none)
    (hhint : m'.state.hintOf self = m.state.hintOf self)
    (hrunning : m'.running self = m.running self)
    (hfirst : firstPush past' self = firstPush past self)
    (hhand : inHand past' self = inHand past self) : PushOf m' past' self := by
  constructor
  · intro hopen' hnone hnot
    rw [hfirst]
    rw [hhint] at hnone
    rw [hrunning] at hnot
    cases hopen hopen' with
    | inl hold => exact h.unpushed hold hnone hnot
    | inr hfresh => exact hfresh
  · intro base p hnone hrunning'
    rw [hhint] at hnone
    rw [hrunning] at hrunning'
    rw [hfirst, hhand]
    exact h.pushing base p hnone hrunning'
  · intro key hk
    rw [hhint] at hk
    rw [hfirst]
    exact h.pushed key hk

theorem PushOwned.opened (h : PushOwned lib m past)
    (howned : MachineOwned lib (fun _ _ _ => True)
      { m with
        state := m.state.setHandler m.nextHandle (some DmergeSyscallHandler.default)
        nextHandle := m.nextHandle + 1 }
      (past ++ [.opened m.nextHandle])) :
    PushOwned lib
      { m with
        state := m.state.setHandler m.nextHandle (some DmergeSyscallHandler.default)
        nextHandle := m.nextHandle + 1 }
      (past ++ [.opened m.nextHandle]) := by
  have hfirst : forall self, firstPush (past ++ [.opened m.nextHandle]) self =
      firstPush past self := fun self => firstPush_snoc _ _ _
  apply pushOwned_of_handles howned
  · intro self hle
    rw [hfirst]
    exact h.unopened self (Nat.le_of_succ_le hle)
  · intro self
    refine (h.handle self).keep ?_ (h.owned.hintOf_open self) rfl (hfirst self)
      (inHand_snoc _ _ _)
    intro hopen
    by_cases hself : self = m.nextHandle
    · exact Or.inr (h.unopened self (le_of_eq hself.symm))
    · rw [isSome_setHandler hself] at hopen
      exact Or.inl hopen

theorem PushOwned.unopened_of_used (h : PushOwned lib m past) {self : Nat}
    (hused : (m.state.handlers self).isSome) {past' : List (Event Regs Rdma)}
    (hother : forall self', self' ≠ self -> firstPush past' self' = firstPush past self') :
    forall self', m.nextHandle ≤ self' -> firstPush past' self' = none := by
  intro self' hle
  have hlt := h.owned.handle_lt self hused
  rw [hother self' (by omega)]
  exact h.unopened self' hle

theorem PushOwned.started (h : PushOwned lib m past) {self : Nat} {req : Request}
    (hidle : m.Idle self)
    (howned : MachineOwned lib (fun _ _ _ => True)
      (m.setRunning self (some (req, ioctrl lib req))) (past ++ [.started self req])) :
    PushOwned lib (m.setRunning self (some (req, ioctrl lib req)))
      (past ++ [.started self req]) := by
  have hnone : m.running self = none := Option.isNone_iff_eq_none.mp hidle.2
  have hother : forall self', self' ≠ self ->
      firstPush (past ++ [.started self req]) self' = firstPush past self' := by
    intro self' hne
    rw [firstPush_snoc]
    cases req with
    | register base => exact if_neg fun hpair => hne hpair.1.symm
    | pull => rfl
    | registerRemote => rfl
  apply pushOwned_of_handles howned (h.unopened_of_used hidle.1 hother)
  intro self'
  by_cases hself : self' = self
  · subst hself
    have hunpushed : m.state.hintOf self' = none -> firstPush past self' = none :=
      fun hhint => h.unpushed self' hidle.1 hhint (by rw [hnone]; nofun)
    constructor
    · intro _ hhint hrunning
      rw [firstPush_snoc, hunpushed hhint]
      cases req with
      | register base =>
          refine absurd ?_ (hrunning base (ioctrl lib (.register base)))
          exact Machine.setRunning_self _ _ _
      | pull => rfl
      | registerRemote => rfl
    · intro base p hhint hrunning
      rw [Machine.setRunning_self] at hrunning
      cases hrunning
      refine ⟨{ base := base, finished := false, reg := none }, ?_, rfl, rfl, ?_⟩
      · rw [firstPush_snoc, hunpushed hhint]
        exact if_pos ⟨rfl, rfl⟩
      · rw [inHand_snoc]
        simp only [handStep, if_pos]
        exact rfl
    · intro key hk
      rcases h.pushed self' key hk with ⟨f, reg, hf, hreg⟩
      refine ⟨f, reg, ?_, hreg⟩
      rw [firstPush_snoc, hf]
      cases req with
      | register base => exact if_neg fun hpair => by cases hpair.2
      | pull => rfl
      | registerRemote => rfl
  · have hhand : inHand (past ++ [.started self req]) self' = inHand past self' := by
      rw [inHand_snoc]
      simp only [handStep, if_neg (Ne.symm hself)]
    exact (h.handle self').keep Or.inl rfl (Machine.setRunning_of_ne hself _) (hother self' hself)
      hhand

theorem PushOwned.finished (h : PushOwned lib m past) {self : Nat} {req : Request}
    {result : Int} (hrunning : m.running self = some (req, .ret result))
    (howned : MachineOwned lib (fun _ _ _ => True) (m.setRunning self none)
      (past ++ [.finished self req result])) :
    PushOwned lib (m.setRunning self none) (past ++ [.finished self req result]) := by
  have hopen := h.owned.running_open self (by rw [hrunning]; rfl)
  have hother : forall self', self' ≠ self ->
      firstPush (past ++ [.finished self req result]) self' = firstPush past self' := by
    intro self' hne
    rw [firstPush_snoc]
    exact if_neg hne.symm
  have hends := (h.owned.command self req _ hrunning result rfl).2
  apply pushOwned_of_handles howned (h.unopened_of_used hopen hother)
  intro self'
  by_cases hself : self' = self
  · subst hself
    constructor
    · intro _ hhint _
      have hold : firstPush past self' = none := by
        refine h.unpushed self' hopen hhint ?_
        intro base p hregister
        rw [hrunning] at hregister
        cases hregister
        rcases hends base rfl with ⟨key, hkey, _⟩
        have hkey' : m.state.hintOf self' = some key := hkey
        have hhint' : m.state.hintOf self' = none := hhint
        rw [hhint'] at hkey'
        cases hkey'
      rw [firstPush_snoc, hold]
      exact if_pos rfl
    · intro base p _ hrunning'
      rw [Machine.setRunning_self] at hrunning'
      cases hrunning'
    · intro key hk
      rcases h.pushed self' key hk with ⟨f, reg, hf, hreg, hbase⟩
      refine ⟨{ f with finished := true }, reg, ?_, hreg, hbase⟩
      rw [firstPush_snoc, hf]
      exact if_pos rfl
  · exact (h.handle self').keep Or.inl rfl (Machine.setRunning_of_ne hself _) (hother self' hself)
      (inHand_snoc _ _ _)

theorem PushOwned.answered (h : PushOwned lib m past) {self : Nat}
    {env : Surroundings Regs Rdma} {req : Request} {o : KernelOp Regs Rdma}
    {k : o.Res -> KProg Regs Rdma Int} (hrunning : m.running self = some (req, .call o k))
    (howned : MachineOwned lib (fun _ _ _ => True)
      ({ m with state := (serve lib self env m.state o).2.1 }.setRunning self
        (some (req, k (serve lib self env m.state o).1)))
      (past ++ (serve lib self env m.state o).2.2)) :
    PushOwned lib
      ({ m with state := (serve lib self env m.state o).2.1 }.setRunning self
        (some (req, k (serve lib self env m.state o).1)))
      (past ++ (serve lib self env m.state o).2.2) := by
  have hopen := h.owned.running_open self (by rw [hrunning]; rfl)
  have hmay := (h.owned.command self req _ hrunning).1
  rcases serve_owned env o h.owned.keys hopen hmay (fun _ => True.intro)
    with ⟨_, hnext, hview⟩
  have hother : forall self', self' ≠ self ->
      firstPush (past ++ (serve lib self env m.state o).2.2) self' = firstPush past self' :=
    fun self' hne => firstPush_serve env o (Or.inl hne)
  apply pushOwned_of_handles howned (h.unopened_of_used hopen hother)
  intro self'
  by_cases hself : self' = self
  · subst hself
    constructor
    · intro _ hnone hnot
      have hnone : (serve lib self' env m.state o).2.1.hintOf self' = none := hnone
      have hreq : forall base, req ≠ .register base := by
        rintro base rfl
        refine hnot base (k (serve lib self' env m.state o).1) ?_
        exact Machine.setRunning_self _ _ _
      have hkept : forall hint, o ≠ .setPrivateHint hint := by
        rintro hint rfl
        rcases hmay with ⟨_, base, hbase, _⟩
        exact hreq base hbase
      have hsame := hint_next hnext hkept
      have hold : firstPush past self' = none := by
        refine h.unpushed self' hopen (hsame.symm.trans hnone) ?_
        intro base p hregister
        rw [hrunning] at hregister
        cases hregister
        exact hreq base rfl
      cases o with
      | addBundler key heapStart rdmaMeta =>
          simp only [serve, firstPush_snoc, firstPushStep, if_pos, hold, Option.map_none]
      | _ => rw [firstPush_serve env _ (Or.inr id), hold]
    · intro base p hnone hrunning'
      have hnone : (serve lib self' env m.state o).2.1.hintOf self' = none := hnone
      rw [Machine.setRunning_self] at hrunning'
      cases hrunning'
      have hkept : forall hint, o ≠ .setPrivateHint hint := by
        rintro hint rfl
        have hset : some hint = none := (congrArg OwnerView.hint hnext).symm.trans hnone
        cases hset
      have hsame := hint_next hnext hkept
      rcases h.pushing self' base _ (hsame.symm.trans hnone) hrunning
        with ⟨f, hf, hbase, hunfinished, hhand⟩
      rcases pushHand_next env o hmay hnext hnone hf hunfinished hhand
        with ⟨f', hf', hbase', hunfinished', hhand'⟩
      exact ⟨f', hf', hbase'.trans hbase, hunfinished', hhand'⟩
    · intro key hk
      have hk : (serve lib self' env m.state o).2.1.hintOf self' = some key := hk
      by_cases hset : exists hint, o = .setPrivateHint hint
      · rcases hset with ⟨hint, rfl⟩
        have hkey : some hint = some key := (congrArg OwnerView.hint hnext).symm.trans hk
        cases hkey
        rcases hmay with ⟨hnone, base, rfl, hheld⟩
        rcases h.pushing self' base _ hnone hrunning with ⟨f, hf, hbase, _, hhand⟩
        have hheld' : inHand past self' = .held key base.toNat := hheld
        rw [hheld'] at hhand
        rcases hhand with ⟨reg, hreg, hstart⟩
        refine ⟨f, reg, ?_, hreg, by rw [hstart, hbase]⟩
        rw [firstPush_serve env _ (Or.inr id), hf]
      · have hsame := hint_next hnext fun hint ho => hset ⟨hint, ho⟩
        rcases h.pushed self' key (hsame.symm.trans hk) with ⟨f, reg, hf, hreg⟩
        exact ⟨f, reg, firstPush_registered env o hf (by rw [hreg.1]; rfl), hreg⟩
  · have hopen' : (m.state.handlers self').isSome =
        ((serve lib self env m.state o).2.1.handlers self').isSome := by
      rw [serve_handlers]
    refine (h.handle self').keep ?_ (congrArg OwnerView.hint (hview self' hself))
      (Machine.setRunning_of_ne hself _) (hother self' hself)
      (congrArg OwnerView.inHand (hview self' hself))
    exact fun hopen => Or.inl (hopen'.trans hopen)

theorem PushOwned.closed (h : PushOwned lib m past) {self : Nat}
    {env : Surroundings Regs Rdma} (hidle : m.Idle self)
    (howned : MachineOwned lib (fun _ _ _ => True)
      { m with
        state := (runAlone lib self env dropHandler m.state).2.1.setHandler self none }
      (past ++ ((runAlone lib self env dropHandler m.state).2.2 ++ [.closed self]))) :
    PushOwned lib
      { m with
        state := (runAlone lib self env dropHandler m.state).2.1.setHandler self none }
      (past ++ ((runAlone lib self env dropHandler m.state).2.2 ++ [.closed self])) := by
  have hfirst : forall self',
      firstPush (past ++ ((runAlone lib self env dropHandler m.state).2.2 ++ [.closed self]))
        self' = firstPush past self' := by
    intro self'
    rw [← List.append_assoc, firstPush_snoc, runAlone_dropHandler]
    cases m.state.hintOf self with
    | none => simp only [List.append_nil, firstPushStep]
    | some hint => simp only [firstPush_snoc, firstPushStep]
  have hview : forall self', self' ≠ self -> _ = ownerView m.state past self' :=
    fun self' hne => ownerView_close lib m.state past hne env
  apply pushOwned_of_handles howned
  · intro self' hle
    rw [hfirst]
    exact h.unopened self' hle
  · intro self'
    by_cases hself : self' = self
    · subst hself
      have hclosed : ((runAlone lib self' env dropHandler m.state).2.1.setHandler self'
          none).hintOf self' = none := by
        rw [ModuleState.hintOf_setHandler, if_pos rfl]
        rfl
      constructor
      · intro hopen _ _
        simp only [ModuleState.setHandler, Function.update_self] at hopen
        cases hopen
      · intro base p _ hrunning
        have hidle' := Option.isNone_iff_eq_none.mp hidle.2
        have hrunning' : m.running self' = some (.register base, p) := hrunning
        rw [hidle'] at hrunning'
        cases hrunning'
      · intro key hk
        have hk' : some key = none := hk.symm.trans hclosed
        cases hk'
    · apply PushOf.keep (h.handle self')
      · intro hopen
        rw [isSome_setHandler hself, handlers_close] at hopen
        exact Or.inl hopen
      · exact congrArg OwnerView.hint (hview self' hself)
      · rfl
      · exact hfirst self'
      · exact congrArg OwnerView.inHand (hview self' hself)

theorem PushOwned.step (h : PushOwned lib m past) {a : Act Regs Rdma}
    (hstep : m.Step lib a m' now) : PushOwned lib m' (past ++ now) := by
  have howned := h.owned.step (fun _ _ _ _ _ _ _ _ => True.intro) hstep
  cases hstep with
  | opened => exact h.opened howned
  | started self req hidle => exact h.started hidle howned
  | finished self env req result hrunning => exact h.finished hrunning howned
  | answered self env req o k hrunning hadmits => exact h.answered hrunning howned
  | closed self env hidle => exact h.closed hidle howned

theorem pushOwned_of_run {pool : Pool bufSize} {acts : List (Act Regs Rdma)}
    (hrun : runFrom (Machine.step lib) (Machine.init pool) acts = some (m, past)) :
    PushOwned lib m past := by
  have hinit : PushOwned lib (Machine.init pool : Machine Regs Rdma bufSize) [] :=
    pushOwned_init pool
  exact runFrom_invariant_free (fun _ _ _ _ _ h hs => PushOwned.step h (.of_step hs)) hinit
    hrun

end Machines

/-!
## What a push serves
-/

/-- The descriptor of the capture that starts at a base. -/
def capturedDescriptor (task : Producer.Task Regs) (rdmaMeta : Rdma) (base : UInt64) :
    ParentDescriptor Regs Rdma :=
  (ShadowHeap.new task rdmaMeta { startVirtAddr := base.toNat }).descriptor

theorem finished_notMem {lib : KernelLib Regs Rdma} {s : ModuleState Regs Rdma bufSize}
    {self' self : Nat} {req : Request} {result : Int} (env : Surroundings Regs Rdma)
    (o : KernelOp Regs Rdma) :
    Event.finished self req result ∉ (serve lib self' env s o).2.2 := by
  cases o using KernelOp.byKind with
  | external o ho => simp [serve_external lib self' env s ho]
  | allocOneId =>
      cases hid : s.idGen.allocOneId with
      | none => simp [serve_allocOneId_none lib self' env s hid]
      | some next => simp [serve_allocOneId_some lib self' env s hid]
  | _ => simp [serve]

/-- Every push that returns gives the hint of the first push of its handle, and
the descriptor served under this hint is what the first push captured, at its
base and with the pages that were present then, exactly when this descriptor is
not longer than a buffer of the pool and its length is a word. -/
theorem push_serves_first (lib : KernelLib Regs Rdma) (pool : Pool bufSize)
    {acts : List (Act Regs Rdma)} {m m' : Machine Regs Rdma bufSize}
    {past now : List (Event Regs Rdma)} {a : Act Regs Rdma}
    (hrun : runFrom (Machine.step lib) (Machine.init pool) acts = some (m, past))
    (hstep : m.step lib a = some (m', now))
    {self : Nat} {base : UInt64} {result : Int}
    (hfinished : Event.finished self (.register base) result ∈ now) :
    exists f key reg,
      firstPush past self = some f ∧ f.reg = some (key, reg) ∧
        result = key.toInt64.toInt ∧
        (Serves lib m'.state key (capturedDescriptor reg.task reg.rdmaMeta f.base) <->
          (capturedDescriptor reg.task reg.rdmaMeta f.base).serializationBufLen lib ≤ bufSize ∧
            (capturedDescriptor reg.task reg.rdmaMeta f.base).serializationBufLen lib <
              2 ^ 64) := by
  have hpush := pushOwned_of_run hrun
  have hstep := Machine.Step.of_step hstep
  have hstored := (stored_of_run hrun).step hstep
  cases hstep with
  | opened => simp at hfinished
  | started => simp at hfinished
  | answered self' env req o k hrunning hadmits => exact absurd hfinished (finished_notMem _ _)
  | closed self' env hidle =>
      rw [runAlone_dropHandler] at hfinished
      cases hhint : m.state.hintOf self' with
      | none => simp [hhint] at hfinished
      | some hint => simp [hhint] at hfinished
  | finished self' env req result' hrunning =>
      simp only [List.mem_singleton, Event.finished.injEq] at hfinished
      rcases hfinished with ⟨rfl, rfl, rfl⟩
      have hends := (hpush.owned.command self _ _ hrunning result rfl).2 base rfl
      rcases hends with ⟨key, hkey, hresult⟩
      rcases hpush.pushed self key hkey with ⟨f, reg, hf, hreg, hbase⟩
      rcases hpush.owned.keys.hint_own self key hkey with ⟨reg', hin', hb⟩
      have hin := registered_of_firstPush hf hreg
      have hsame := (hpush.owned.keys.registered_unique self self key reg reg' hin hin').2
      rw [hsame] at hb
      have hserves := hstored.serves_iff hb env
      refine ⟨f, key, reg, hf, hreg, hresult, ?_⟩
      have hheap : (reg.bundler lib).heap.descriptor =
          capturedDescriptor reg.task reg.rdmaMeta f.base := by
        unfold capturedDescriptor
        rw [← hbase]
        rfl
      rwa [hheap] at hserves

def pushTwiceActs : List (Act UInt64 UInt64) :=
  registerActs ++ .command 0 (.register 65536) ::
    (List.replicate 2 (smallSurroundings none 0)).map (.resume 0)

def firstPushLen (past : List (Event UInt64 UInt64)) (handle : Nat) : Option Nat :=
  (firstPush past handle).bind fun f => f.reg.map fun r =>
    (capturedDescriptor r.2.task r.2.rdmaMeta f.base).serializationBufLen plainLib

theorem push_serves_first_twice :
    exists m past m' now f key reg,
      runFrom (Machine.step plainLib) (Machine.init (Pool.zeroed 128))
          (registerActs ++ [.command 0 (.register 65536), .resume 0 (smallSurroundings none 0)]) =
          some (m, past) ∧
        m.step plainLib (.resume 0 (smallSurroundings none 0)) = some (m', now) ∧
        firstPush past 0 = some f ∧ f.reg = some (key, reg) ∧ (1 : Int) = key.toInt64.toInt ∧
          Serves plainLib m'.state key (capturedDescriptor reg.task reg.rdmaMeta f.base) := by
  have hobserved :
      (runFrom (Machine.step plainLib) (Machine.init (Pool.zeroed 128))
        (registerActs ++ [.command 0 (.register 65536), .resume 0 (smallSurroundings none 0)])).map
          (fun r => (firstPushLen r.2 0,
            (r.1.step plainLib (.resume 0 (smallSurroundings none 0))).map fun r => r.2)) =
        some (some 72, some [.finished 0 (.register 65536) 1]) := by
    rfl
  rcases Option.map_eq_some_iff.mp hobserved with ⟨⟨m, past⟩, hrun, hfacts⟩
  rcases Option.map_eq_some_iff.mp (congrArg Prod.snd hfacts) with ⟨⟨m', now⟩, hstep, hnow⟩
  have hfinished : Event.finished 0 (.register 65536) 1 ∈ now := by
    have hnow : now = [.finished 0 (.register 65536) 1] := hnow
    rw [hnow]
    exact List.mem_singleton.mpr rfl
  rcases push_serves_first plainLib (Pool.zeroed 128) hrun hstep hfinished
    with ⟨f, key, reg, hf, hreg, hresult, hserves⟩
  have hlen : firstPushLen past 0 = some 72 := congrArg Prod.fst hfacts
  unfold firstPushLen at hlen
  rw [hf, Option.bind_some, hreg, Option.map_some] at hlen
  refine ⟨m, past, m', now, f, key, reg, hrun, hstep, hf, hreg, hresult, hserves.mpr ?_⟩
  rw [Option.some.inj hlen]
  decide

/-- Not every push serves the heap at its own base. -/
theorem not_push_current :
    ¬ forall (acts : List (Act UInt64 UInt64)) self base
        (envs : List (Surroundings UInt64 UInt64)) (m : Machine UInt64 UInt64 128)
        past result key task,
      runFrom (Machine.step plainLib) (Machine.init (Pool.zeroed 128))
          (acts ++ .command self (.register base) :: envs.map (.resume self)) = some (m, past) ->
        past.getLast? = some (.finished self (.register base) result) ->
        (forall env, env ∈ envs -> env.task = task) ->
        result = key.toInt64.toInt ->
          exists rdmaMeta, Serves plainLib m.state key (capturedDescriptor task rdmaMeta base) := by
  intro h
  have hobserved :
      (runFrom (Machine.step plainLib) (Machine.init (Pool.zeroed 128)) pushTwiceActs).map
          (fun r => (r.2.getLast?, (r.1.state.bundle 1).map fun b =>
            b.heap.descriptor.serializationBufLen plainLib)) =
        some (some (.finished 0 (.register 65536) 1), some 72) := by
    rfl
  rcases Option.map_eq_some_iff.mp hobserved with ⟨⟨m, past⟩, hrun, hfacts⟩
  rcases Option.map_eq_some_iff.mp (congrArg Prod.snd hfacts) with ⟨b, hb, hlen⟩
  rcases h registerActs 0 65536 _ m past 1 1 smallTask hrun (congrArg Prod.fst hfacts)
    (fun env henv => by rw [List.eq_of_mem_replicate henv]; rfl) rfl with ⟨rdmaMeta, hserves⟩
  have hlen : b.heap.descriptor.serializationBufLen plainLib = 72 := hlen
  have hfirst : Serves plainLib m.state 1 b.heap.descriptor := by
    apply ((stored_of_run hrun).serves_iff hb (smallSurroundings none 0)).mpr
    rw [hlen]
    decide
  have hsame := hserves.length_eq hfirst (smallSurroundings none 0)
  have hshort : (capturedDescriptor smallTask rdmaMeta 65536).serializationBufLen plainLib =
      24 := by
    rfl
  rw [hlen, hshort] at hsame
  exact absurd hsame (by decide)

end Kernel
end Dmerge
