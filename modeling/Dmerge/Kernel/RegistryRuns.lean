import Dmerge.Kernel.Ownership

/-!
# The registry over whole runs

The step lemma: an answer to a command that follows its protocol keeps the
ownership of keys, moves the command along its protocol, and changes nothing
that another handle owns.  The run lemma follows by induction, and the
ownership of the registry is read off it.
-/

namespace Dmerge
namespace Kernel

open Foundation Memory Descriptors Producer

variable {Regs Rdma : Type} {bufSize : Nat}

/-!
## One answer
-/

section Answers

variable {lib : KernelLib Regs Rdma} {s : ModuleState Regs Rdma bufSize}
variable {past : List (Event Regs Rdma)} {self : Nat}

theorem KeysOwned.same (h : KeysOwned lib s past) {s' : ModuleState Regs Rdma bufSize}
    (hid : s'.idGen = s.idGen)
    (hhint : forall self key, s'.hintOf self = some key -> s.hintOf self = some key)
    (hbundle : forall key, s'.bundle key = s.bundle key) : KeysOwned lib s' past :=
  h.keep (fun _ => id) (fun _ _ => Iff.rfl) (fun _ _ _ => Iff.rfl) (fun _ => Or.inl rfl)
    hid hhint hbundle

theorem KeysOwned.queried (h : KeysOwned lib s past) {key : UInt64} {heapStart : Nat}
    (hhand : inHand past self = .held key heapStart) :
    (s.service.queryDescriptorBuf key).isSome := by
  have hheld := h.hand_own self
  rw [hhand] at hheld
  rcases hheld with ⟨reg, _, _, hb, _⟩
  have hlookup : s.service.registeredHeap.lookup key = some (reg.bundler lib) := hb
  unfold ShadowHeapService.queryDescriptorBuf
  rw [hlookup]
  rfl

variable (env : Surroundings Regs Rdma) {req : Request}
variable {allowed : (o : KernelOp Regs Rdma) -> o.Res -> Prop}

theorem ownerView_other {s' : ModuleState Regs Rdma bufSize} {e : Event Regs Rdma}
    {other : Nat} (hhint : s'.hintOf other = s.hintOf other)
    (hhand : handStep other (inHand past other) e = inHand past other) :
    ownerView s' (past ++ [e]) other = ownerView s past other := by
  unfold ownerView
  rw [hhint, inHand_snoc, hhand]

theorem ownerView_own {s' : ModuleState Regs Rdma bufSize} {e : Event Regs Rdma}
    {hint : Option UInt64} {hand : KeyInHand} (hhint : s'.hintOf self = hint)
    (hhand : handStep self (inHand past self) e = hand) :
    ownerView s' (past ++ [e]) self = { hint := hint, inHand := hand } := by
  unfold ownerView
  rw [hhint, inHand_snoc, hhand]

theorem serve_owned (o : KernelOp Regs Rdma) (h : KeysOwned lib s past)
    (hopen : (s.handlers self).isSome)
    (hmay : (ownerProtocol req allowed).may (ownerView s past self) o)
    (hallowed : o.External -> allowed o (env.answer o)) :
    KeysOwned lib (serve lib self env s o).2.1 (past ++ (serve lib self env s o).2.2) ∧
      (ownerProtocol req allowed).next (ownerView s past self) o (serve lib self env s o).1
        (ownerView (serve lib self env s o).2.1 (past ++ (serve lib self env s o).2.2) self) ∧
      forall other, other ≠ self ->
        ownerView (serve lib self env s o).2.1 (past ++ (serve lib self env s o).2.2) other =
          ownerView s past other := by
  cases o using KernelOp.byKind with
  | external o ho =>
      rw [serve_external lib self env s ho, List.append_nil]
      refine ⟨h, ?_, fun _ _ => rfl⟩
      have hanswer := hallowed ho
      cases o <;> first | exact ⟨hanswer, rfl⟩ | exact ho.elim
  | getPrivateHint =>
      simp only [serve, List.append_nil]
      exact ⟨h, ⟨rfl, rfl⟩, fun _ _ => trivial⟩
  | queryDescriptorBuf key =>
      simp only [serve, List.append_nil]
      exact ⟨h, ⟨fun heapStart hhand => h.queried hhand, rfl⟩, fun _ _ => trivial⟩
  | pushPublicHeap heap =>
      simp only [serve, List.append_nil]
      have hhint := s.hintOf_pushPublicHeap self heap
      refine ⟨h.same rfl ?_ (fun _ => rfl), ?_, fun other _ => ?_⟩
      · intro self' key hk
        rwa [hhint] at hk
      · unfold ownerView
        rw [hhint]
        rfl
      · unfold ownerView
        rw [hhint]
  | allocOneId =>
      cases hid : s.idGen.allocOneId with
      | none =>
          rw [serve_allocOneId_none lib self env s hid, List.append_nil]
          exact ⟨h, rfl, fun _ _ => rfl⟩
      | some next =>
          rcases next with ⟨key, idGen⟩
          rw [serve_allocOneId_some lib self env s hid]
          refine ⟨h.issue hid self, ?_, fun other hother => ?_⟩
          · exact ownerView_own rfl (if_pos rfl)
          · exact ownerView_other rfl (if_neg hother.symm)
  | addBundler key heapStart rdmaMeta =>
      simp only [serve]
      have hhand : inHand past self = .allocated key := hmay
      have hown := h.hand_own self
      rw [hhand] at hown
      refine ⟨h.register hown.1 hown.2 _, ?_, fun other hother => ?_⟩
      · exact ownerView_own rfl (if_pos rfl)
      · exact ownerView_other rfl (if_neg hother.symm)
  | setPrivateHint key =>
      simp only [serve]
      rcases hmay with ⟨_, base, _, hhand⟩
      have hset : forall self', self' ≠ self ->
          (s.updateHandler self fun h => { h with privateHeapHint := some key }).hintOf self' =
            s.hintOf self' := by
        intro self' hne
        rw [ModuleState.hintOf_updateHandler, if_neg hne]
      have hself : (s.updateHandler self fun h =>
          { h with privateHeapHint := some key }).hintOf self = some key := by
        rw [ModuleState.hintOf_updateHandler, if_pos rfl]
        rcases Option.isSome_iff_exists.mp hopen with ⟨handler, hhandler⟩
        rw [hhandler]
        rfl
      refine ⟨h.adopt hhand rfl ?_ hset (fun _ => rfl), ?_, fun other hother => ?_⟩
      · intro key' hk
        rw [hself] at hk
        exact (Option.some.inj hk).symm
      · exact ownerView_own hself (if_pos rfl)
      · exact ownerView_other (hset other hother) (if_neg hother.symm)
  | unregister key =>
      simp only [serve]
      rcases hmay with ⟨_, heapStart, hhand⟩
      have hown := h.hand_own self
      have hhand' : inHand past self = .held key heapStart := hhand
      rw [hhand'] at hown
      rcases hown with ⟨reg, hin, _, hb, hne⟩
      refine ⟨h.release hin rfl ?_ (s.bundle_unregister key), ?_, fun other hother => ?_⟩
      · intro self' key' hk
        refine ⟨hk, ?_⟩
        rintro rfl
        rcases h.hint_own self' key' hk with ⟨reg', hin', _⟩
        have hsame := (h.registered_unique self self' key' reg reg' hin hin').1
        rw [hsame] at hk
        exact hne hk
      · exact ownerView_own rfl (if_pos rfl)
      · exact ownerView_other rfl (if_neg hother.symm)

end Answers

/-!
## One step of the machine
-/

/-- The external calls of the commands get answers that are allowed. -/
def ExternalAnswers
    (allowed : Request -> (o : KernelOp Regs Rdma) -> o.Res -> Prop)
    (m : Machine Regs Rdma bufSize) (a : Act Regs Rdma) : Prop :=
  forall self env req o (k : o.Res -> KProg Regs Rdma Int),
    a = .resume self env -> m.running self = some (req, .call o k) ->
      o.External -> allowed req o (env.answer o)

def Releases (lib : KernelLib Regs Rdma)
    (allowed : Request -> (o : KernelOp Regs Rdma) -> o.Res -> Prop) (req : Request) : Prop :=
  forall base machineId, req = .registerRemote base machineId ->
    forall o r, allowed req o r -> Answered lib o r

def KeepsProtocol (lib : KernelLib Regs Rdma)
    (allowed : Request -> (o : KernelOp Regs Rdma) -> o.Res -> Prop) (req : Request)
    (p : KProg Regs Rdma Int) (g : OwnerView) : Prop :=
  p.Conforms (ownerProtocol req (allowed req)) (CommandEnds req (Releases lib allowed req)) g

structure MachineOwned (lib : KernelLib Regs Rdma)
    (allowed : Request -> (o : KernelOp Regs Rdma) -> o.Res -> Prop)
    (m : Machine Regs Rdma bufSize) (past : List (Event Regs Rdma)) : Prop where
  keys : KeysOwned lib m.state past
  handle_lt : forall self, (m.state.handlers self).isSome -> self < m.nextHandle
  running_open : forall self, (m.running self).isSome -> (m.state.handlers self).isSome
  command : forall self req p, m.running self = some (req, p) ->
    KeepsProtocol lib allowed req p (ownerView m.state past self)

section Machines

variable {lib : KernelLib Regs Rdma}
variable {allowed : Request -> (o : KernelOp Regs Rdma) -> o.Res -> Prop}
variable {m m' : Machine Regs Rdma bufSize} {past now : List (Event Regs Rdma)}

theorem machineOwned_init (pool : Pool bufSize) :
    MachineOwned lib allowed (Machine.init pool : Machine Regs Rdma bufSize) [] where
  keys := keysOwned_init lib pool
  handle_lt _ h := by cases h
  running_open _ h := by cases h
  command _ _ _ h := by cases h

theorem serve_handlers (self : Nat) (env : Surroundings Regs Rdma)
    (s : ModuleState Regs Rdma bufSize) (o : KernelOp Regs Rdma) (other : Nat) :
    ((serve lib self env s o).2.1.handlers other).isSome = (s.handlers other).isSome := by
  have hupdate : forall f, ((s.updateHandler self f).handlers other).isSome =
      (s.handlers other).isSome := by
    intro f
    unfold ModuleState.updateHandler ModuleState.setHandler
    by_cases hother : other = self
    · rw [hother]
      simp only [Function.update_self, Option.isSome_map]
    · simp only [Function.update_of_ne hother]
  cases o using KernelOp.byKind with
  | external o ho => rw [serve_external lib self env s ho]
  | setPrivateHint hint => exact hupdate _
  | pushPublicHeap heap => exact hupdate _
  | allocOneId =>
      cases hid : s.idGen.allocOneId with
      | none => rw [serve_allocOneId_none lib self env s hid]
      | some next => rw [serve_allocOneId_some lib self env s hid]
  | _ => rfl

theorem KeysOwned.close {s : ModuleState Regs Rdma bufSize} (h : KeysOwned lib s past)
    (self : Nat) (env : Surroundings Regs Rdma) :
    KeysOwned lib ((runAlone lib self env dropHandler s).2.1.setHandler self none)
      (past ++ ((runAlone lib self env dropHandler s).2.2 ++ [.closed self])) := by
  have hhint : forall (t : ModuleState Regs Rdma bufSize) self' key,
      (t.setHandler self none).hintOf self' = some key ->
        self' ≠ self ∧ t.hintOf self' = some key := by
    intro t self' key hk
    rw [ModuleState.hintOf_setHandler] at hk
    by_cases hself : self' = self
    · rw [if_pos hself] at hk
      cases hk
    · rw [if_neg hself] at hk
      exact ⟨hself, hk⟩
  have hclosed : forall {t : ModuleState Regs Rdma bufSize} {past' : List (Event Regs Rdma)},
      KeysOwned lib t past' -> KeysOwned lib t (past' ++ [.closed self]) := by
    intro t past' ht
    refine ht.keep (fun _ => List.mem_append_left _) ?_ ?_ ?_ rfl (fun _ _ => id)
      (fun _ => rfl)
    · intro self' key
      simp
    · intro self' key reg
      simp
    · intro self'
      rw [inHand_snoc]
      exact Or.inl rfl
  rw [← List.append_assoc]
  refine hclosed ?_
  rw [runAlone_dropHandler]
  cases hhintOf : s.hintOf self with
  | none =>
      simp only [List.append_nil]
      exact h.same rfl (fun self' key hk => (hhint s self' key hk).2) (fun _ => rfl)
  | some hint =>
      rcases h.hint_own self hint hhintOf with ⟨reg, hin, _⟩
      refine h.release hin rfl ?_ (s.bundle_unregister hint)
      intro self' key hk
      rcases hhint _ self' key hk with ⟨hne, hk⟩
      refine ⟨hk, ?_⟩
      rintro rfl
      rcases h.hint_own self' key hk with ⟨reg', hin', _⟩
      exact hne (h.registered_unique self self' key reg reg' hin hin').1

theorem ownerView_close (lib : KernelLib Regs Rdma) (s : ModuleState Regs Rdma bufSize)
    (past : List (Event Regs Rdma)) {self other : Nat} (hother : other ≠ self)
    (env : Surroundings Regs Rdma) :
    ownerView ((runAlone lib self env dropHandler s).2.1.setHandler self none)
        (past ++ ((runAlone lib self env dropHandler s).2.2 ++ [.closed self])) other =
      ownerView s past other := by
  unfold ownerView
  rw [ModuleState.hintOf_setHandler, if_neg hother, ← List.append_assoc, inHand_snoc,
    runAlone_dropHandler]
  cases s.hintOf self with
  | none =>
      simp only [List.append_nil]
      rfl
  | some hint =>
      simp only [inHand_snoc, handStep, if_neg hother.symm]
      rfl

theorem isSome_setHandler {s : ModuleState Regs Rdma bufSize} {self other : Nat}
    (hother : other ≠ self) (handler : Option (DmergeSyscallHandler Regs Rdma)) :
    ((s.setHandler self handler).handlers other).isSome = (s.handlers other).isSome := by
  unfold ModuleState.setHandler
  simp only [Function.update_of_ne hother]

theorem handlers_close {s : ModuleState Regs Rdma bufSize} (self : Nat)
    (env : Surroundings Regs Rdma) :
    (runAlone lib self env dropHandler s).2.1.handlers = s.handlers := by
  rw [runAlone_dropHandler]
  cases s.hintOf self with
  | none => rfl
  | some hint => rfl

theorem MachineOwned.hintOf_open (h : MachineOwned lib allowed m past) (self : Nat) :
    (m.state.setHandler m.nextHandle (some DmergeSyscallHandler.default)).hintOf self =
      m.state.hintOf self := by
  rw [ModuleState.hintOf_setHandler]
  by_cases hself : self = m.nextHandle
  · rw [if_pos hself, hself]
    cases hhandler : m.state.handlers m.nextHandle with
    | none =>
        unfold ModuleState.hintOf
        rw [hhandler]
        rfl
    | some handler =>
        exact absurd (h.handle_lt m.nextHandle (by rw [hhandler]; rfl)) (lt_irrefl _)
  · rw [if_neg hself]

theorem MachineOwned.opened (h : MachineOwned lib allowed m past) :
    MachineOwned lib allowed
      { m with
        state := m.state.setHandler m.nextHandle (some DmergeSyscallHandler.default)
        nextHandle := m.nextHandle + 1 }
      (past ++ [.opened m.nextHandle]) := by
  have hhint := h.hintOf_open
  constructor
  · refine h.keys.keep (fun _ => List.mem_append_left _) ?_ ?_ ?_ rfl ?_ (fun _ => rfl)
    · intro self key
      simp
    · intro self key reg
      simp
    · intro self
      rw [inHand_snoc]
      exact Or.inl rfl
    · intro self key hk
      rwa [hhint] at hk
  · intro self hopen
    by_cases hself : self = m.nextHandle
    · rw [hself]
      exact Nat.lt_succ_self _
    · rw [isSome_setHandler hself] at hopen
      exact Nat.lt_succ_of_lt (h.handle_lt self hopen)
  · intro self hrunning
    have hopen := h.running_open self hrunning
    rwa [isSome_setHandler (ne_of_lt (h.handle_lt self hopen))]
  · intro self req p hp
    rw [ownerView_other (hhint self) rfl]
    exact h.command self req p hp

theorem MachineOwned.advance (h : MachineOwned lib allowed m past) {self : Nat}
    {s' : ModuleState Regs Rdma bufSize} {command : Option (Request × KProg Regs Rdma Int)}
    {past' : List (Event Regs Rdma)} (hkeys : KeysOwned lib s' past')
    (hhandlers : forall other, (s'.handlers other).isSome = (m.state.handlers other).isSome)
    (hview : forall other, other ≠ self -> ownerView s' past' other = ownerView m.state past other)
    (hopen : (m.state.handlers self).isSome)
    (hcommand : forall req p, command = some (req, p) ->
      KeepsProtocol lib allowed req p (ownerView s' past' self)) :
    MachineOwned lib allowed ({ m with state := s' }.setRunning self command) past' := by
  constructor
  · exact hkeys
  · intro other hsome
    apply h.handle_lt other
    rw [← hhandlers other]
    exact hsome
  · intro other hrunning
    show (s'.handlers other).isSome
    rw [hhandlers other]
    by_cases hother : other = self
    · rwa [hother]
    · rw [Machine.setRunning_of_ne hother] at hrunning
      exact h.running_open other hrunning
  · intro other req p hp
    show KeepsProtocol lib allowed req p (ownerView s' past' other)
    by_cases hother : other = self
    · subst hother
      rw [Machine.setRunning_self] at hp
      exact hcommand req p hp
    · rw [Machine.setRunning_of_ne hother] at hp
      rw [hview other hother]
      exact h.command other req p hp

theorem MachineOwned.started (h : MachineOwned lib allowed m past) {self : Nat} {req : Request}
    (hidle : m.Idle self) :
    MachineOwned lib allowed (m.setRunning self (some (req, ioctrl lib req)))
      (past ++ [.started self req]) := by
  apply h.advance _ (fun _ => rfl) _ hidle.1
  · intro req' p hp
    cases hp
    have hview : ownerView m.state (past ++ [.started self req]) self =
        { hint := m.state.hintOf self, inHand := .idle } := ownerView_own rfl (if_pos rfl)
    rw [hview]
    exact ioctrl_conforms lib (allowed req) req (fun hreleased => hreleased)
      (m.state.hintOf self)
  · apply h.keys.keep (fun _ => List.mem_append_left _) _ _ _ rfl (fun _ _ => id) (fun _ => rfl)
    · intro other key
      simp
    · intro other key reg
      simp
    · intro other
      rw [inHand_snoc]
      by_cases hother : self = other
      · exact Or.inr (if_pos hother)
      · exact Or.inl (if_neg hother)
  · intro other hother
    exact ownerView_other rfl (if_neg hother.symm)

theorem MachineOwned.finished (h : MachineOwned lib allowed m past) {self : Nat} {req : Request}
    {result : Int} (hrunning : m.running self = some (req, .ret result)) :
    MachineOwned lib allowed (m.setRunning self none) (past ++ [.finished self req result]) := by
  apply h.advance _ (fun _ => rfl) _ (h.running_open self (by rw [hrunning]; rfl))
  · intro req' p hp
    cases hp
  · apply h.keys.keep (fun _ => List.mem_append_left _) _ _ _ rfl (fun _ _ => id) (fun _ => rfl)
    · intro other key
      simp
    · intro other key reg
      simp
    · intro other
      rw [inHand_snoc]
      exact Or.inl rfl
  · intro other _
    exact ownerView_other rfl rfl

theorem MachineOwned.answered (h : MachineOwned lib allowed m past) {self : Nat}
    (env : Surroundings Regs Rdma) {req : Request} {o : KernelOp Regs Rdma}
    {k : o.Res -> KProg Regs Rdma Int} (hrunning : m.running self = some (req, .call o k))
    (hallowed : o.External -> allowed req o (env.answer o)) :
    MachineOwned lib allowed
      ({ m with state := (serve lib self env m.state o).2.1 }.setRunning self
        (some (req, k (serve lib self env m.state o).1)))
      (past ++ (serve lib self env m.state o).2.2) := by
  have hopen := h.running_open self (by rw [hrunning]; rfl)
  have hconf := h.command self req _ hrunning
  rcases serve_owned env o h.keys hopen hconf.1 hallowed with ⟨hkeys, hnext, hother⟩
  apply h.advance hkeys _ hother hopen
  · intro req' p hp
    cases hp
    exact hconf.2 _ _ hnext
  · intro other
    rw [serve_handlers]

theorem MachineOwned.closed (h : MachineOwned lib allowed m past) {self : Nat}
    (env : Surroundings Regs Rdma) (hidle : m.Idle self) :
    MachineOwned lib allowed
      { m with state := (runAlone lib self env dropHandler m.state).2.1.setHandler self none }
      (past ++ ((runAlone lib self env dropHandler m.state).2.2 ++ [.closed self])) := by
  have hrunning : forall other, (m.running other).isSome -> other ≠ self := by
    rintro other hsome rfl
    rw [Option.isNone_iff_eq_none.mp hidle.2] at hsome
    cases hsome
  constructor
  · exact h.keys.close self env
  · intro other hopen
    apply h.handle_lt other
    by_cases hother : other = self
    · rw [hother]
      exact hidle.1
    · rwa [isSome_setHandler hother, handlers_close] at hopen
  · intro other hsome
    show ((ModuleState.setHandler _ self none).handlers other).isSome
    rw [isSome_setHandler (hrunning other hsome), handlers_close]
    exact h.running_open other hsome
  · intro other req p hp
    have hp' : m.running other = some (req, p) := hp
    have hother := hrunning other (by rw [hp']; rfl)
    rw [ownerView_close lib m.state past hother env]
    exact h.command other req p hp'

theorem MachineOwned.step (h : MachineOwned lib allowed m past) {a : Act Regs Rdma}
    (hexternal : ExternalAnswers allowed m a) (hstep : m.Step lib a m' now) :
    MachineOwned lib allowed m' (past ++ now) := by
  cases hstep with
  | opened => exact h.opened
  | started self req hidle => exact h.started hidle
  | finished self env req result hrunning => exact h.finished hrunning
  | answered self env req o k hrunning hadmits =>
      exact h.answered env hrunning (hexternal self env req o k rfl hrunning)
  | closed self env hidle => exact h.closed env hidle

theorem machineOwned_of_run {pool : Pool bufSize} {acts : List (Act Regs Rdma)}
    (hmeets : RunMeets (Machine.step lib) (ExternalAnswers allowed) (Machine.init pool) acts)
    (hrun : runFrom (Machine.step lib) (Machine.init pool) acts = some (m, past)) :
    MachineOwned lib allowed m past :=
  runFrom_invariant (fun _ _ _ _ _ h hexternal hs => h.step hexternal (.of_step hs))
    (machineOwned_init pool) hmeets hrun

theorem machineOwned_of_any_run {pool : Pool bufSize} {acts : List (Act Regs Rdma)}
    (hrun : runFrom (Machine.step lib) (Machine.init pool) acts = some (m, past)) :
    MachineOwned lib (fun _ _ _ => True) m past :=
  machineOwned_of_run
    (runMeets_of_forall (fun _ _ _ _ _ _ _ _ _ _ _ => True.intro) _) hrun

end Machines

/-!
## The registry is owned
-/

structure RegistryOwned (lib : KernelLib Regs Rdma) (m : Machine Regs Rdma bufSize)
    (past : List (Event Regs Rdma)) : Prop where
  /-- Two open handles never hold the same hint. -/
  distinct : forall self self' key, m.state.hintOf self = some key ->
    m.state.hintOf self' = some key -> self' = self
  /-- The hint of a handle finds the bundle that this handle registered, and
  nobody else ever registered one under it. -/
  own : forall self key, m.state.hintOf self = some key -> exists reg,
    Event.registered self key reg ∈ past ∧
      (forall self' reg', Event.registered self' key reg' ∈ past ->
        self' = self ∧ reg' = reg) ∧
      m.state.bundle key = some (reg.bundler lib)

section Registry

variable {lib : KernelLib Regs Rdma} {m m' : Machine Regs Rdma bufSize}
variable {past now : List (Event Regs Rdma)}

theorem KeysOwned.registryOwned (h : KeysOwned lib m.state past) : RegistryOwned lib m past where
  distinct self self' key hk hk' := by
    rcases h.hint_own self key hk with ⟨reg, hin, _⟩
    rcases h.hint_own self' key hk' with ⟨reg', hin', _⟩
    exact (h.registered_unique self self' key reg reg' hin hin').1
  own self key hk := by
    rcases h.hint_own self key hk with ⟨reg, hin, hb⟩
    exact ⟨reg, hin, fun self' reg' hin' => h.registered_unique self self' key reg reg' hin hin',
      hb⟩

theorem registered_of_step {a : Act Regs Rdma} (hstep : m.Step lib a m' now)
    {self : Nat} {key : UInt64} {reg : Registration Regs Rdma}
    (hin : Event.registered self key reg ∈ now) :
    exists env req heapStart rdmaMeta, exists k : Unit -> KProg Regs Rdma Int,
      a = .resume self env ∧
        m.running self = some (req, .call (.addBundler key heapStart rdmaMeta) k) ∧
          reg = { heapStartAddr := heapStart, task := env.task, rdmaMeta := rdmaMeta,
                  buf := env.buf } := by
  cases hstep with
  | opened => simp at hin
  | started => simp at hin
  | finished => simp at hin
  | closed self' env =>
      rw [runAlone_dropHandler] at hin
      cases hhint : m.state.hintOf self' with
      | none => simp [hhint] at hin
      | some hint => simp [hhint] at hin
  | answered self' env req o k hrunning hadmits =>
      cases o using KernelOp.byKind with
      | external o ho => simp [serve_external lib self' env m.state ho] at hin
      | allocOneId =>
          cases hid : m.state.idGen.allocOneId with
          | none => simp [serve_allocOneId_none lib self' env m.state hid] at hin
          | some next => simp [serve_allocOneId_some lib self' env m.state hid] at hin
      | addBundler key' heapStart rdmaMeta =>
          simp only [serve, List.mem_singleton, Event.registered.injEq] at hin
          rcases hin with ⟨rfl, rfl, hreg⟩
          exact ⟨env, req, heapStart, rdmaMeta, k, rfl, hrunning, hreg⟩
      | _ => simp [serve] at hin

theorem MachineOwned.registers_fresh
    {allowed : Request -> (o : KernelOp Regs Rdma) -> o.Res -> Prop}
    (h : MachineOwned lib allowed m past) {a : Act Regs Rdma} (hstep : m.Step lib a m' now)
    {self : Nat} {key : UInt64} {reg : Registration Regs Rdma}
    (hin : Event.registered self key reg ∈ now) : m.state.bundle key = none := by
  rcases registered_of_step hstep hin
    with ⟨env, req, heapStart, rdmaMeta, k, _, hrunning, _⟩
  have hhand : inHand past self = .allocated key := (h.command self req _ hrunning).1
  have hown := h.keys.hand_own self
  rw [hhand] at hown
  cases hb : m.state.bundle key with
  | none => rfl
  | some b =>
      rcases h.keys.bundle_registered key b hb with ⟨self', reg', hin', _⟩
      exact absurd hin' (hown.2 self' reg')

theorem bundle_dropHandler (lib : KernelLib Regs Rdma) (self : Nat)
    (env : Surroundings Regs Rdma) (s : ModuleState Regs Rdma bufSize) (key : UInt64) :
    (runAlone lib self env dropHandler s).2.1.bundle key =
      if s.hintOf self = some key then none else s.bundle key := by
  rw [runAlone_dropHandler]
  cases s.hintOf self with
  | none => rfl
  | some hint =>
      simp only [ModuleState.bundle_unregister]
      by_cases hkey : key = hint
      · rw [if_pos hkey, if_pos (by rw [hkey])]
      · rw [if_neg hkey, if_neg (fun h => hkey (Option.some.inj h).symm)]

theorem bundle_close {self : Nat} {env : Surroundings Regs Rdma}
    (hstep : m.Step lib (.closeHandle self env) m' now) (key : UInt64) :
    m'.state.bundle key =
      if m.state.hintOf self = some key then none else m.state.bundle key := by
  cases hstep with
  | closed _ _ hidle => exact bundle_dropHandler lib self env m.state key

end Registry

theorem registry_owned (lib : KernelLib Regs Rdma) (pool : Pool bufSize)
    {acts : List (Act Regs Rdma)} {m : Machine Regs Rdma bufSize}
    {past : List (Event Regs Rdma)}
    (hrun : runFrom (Machine.step lib) (Machine.init pool) acts = some (m, past)) :
    RegistryOwned lib m past ∧
      forall a m' now, m.step lib a = some (m', now) ->
        (forall self key reg, Event.registered self key reg ∈ now ->
          m.state.bundle key = none) ∧
        (forall self env, a = .closeHandle self env -> forall key,
          m'.state.bundle key =
            if m.state.hintOf self = some key then none else m.state.bundle key) := by
  have howned := machineOwned_of_any_run hrun
  refine ⟨howned.keys.registryOwned, ?_⟩
  intro a m' now hstep
  constructor
  · intro self key reg hin
    exact howned.registers_fresh (.of_step hstep) hin
  · rintro self env rfl key
    exact bundle_close (.of_step hstep) key

def registerActs : List (Act UInt64 UInt64) :=
  [.openHandle, .command 0 (.register 4096)] ++
    List.replicate 6 (.resume 0 (smallSurroundings none 0))

theorem registry_owned_register :
    exists m past,
      runFrom (Machine.step plainLib) (Machine.init (Pool.zeroed 128)) registerActs =
          some (m, past) ∧
        m.state.hintOf 0 = some 1 ∧ RegistryOwned plainLib m past := by
  have hobserved :
      (runFrom (Machine.step plainLib) (Machine.init (Pool.zeroed 128)) registerActs).map
        (fun r => r.1.state.hintOf 0) = some (some 1) := by
    rfl
  rcases Option.map_eq_some_iff.mp hobserved with ⟨⟨m, past⟩, hrun, hhint⟩
  exact ⟨m, past, hrun, hhint, (registry_owned plainLib (Pool.zeroed 128) hrun).1⟩

end Kernel
end Dmerge
