import Dmerge.Kernel.QueryReplies

/-!
# The life of a hint

The events of a run that are about one hint are read in order: the hint is
issued, then registered by the handle it was issued to, then removed by that
handle, and it never comes back.  The registry is a function of this history,
and so is what a query is told.
-/

namespace Dmerge
namespace Kernel

open Foundation Memory Descriptors Producer

variable {Regs Rdma : Type} {bufSize : Nat}

/-!
## Lives
-/

/-- How far a hint has come, and the handle that it was issued to. -/
inductive HintLife (Regs Rdma : Type) where
  | fresh
  | issued (owner : Nat)
  | live (owner : Nat) (reg : Registration Regs Rdma)
  | released (owner : Nat)

/-- The hint that an event is about. -/
def Event.hint : Event Regs Rdma -> Option UInt64
  | .issued _ key => some key
  | .registered _ key _ => some key
  | .adopted _ key => some key
  | .unregistered _ key => some key
  | _ => none

namespace HintLife

def next : HintLife Regs Rdma -> Event Regs Rdma -> Option (HintLife Regs Rdma)
  | .fresh, .issued self _ => some (.issued self)
  | .issued owner, .registered self _ reg =>
      if self = owner then some (.live owner reg) else none
  | .live owner reg, .adopted self _ => if self = owner then some (.live owner reg) else none
  | .live owner _, .unregistered self _ => if self = owner then some (.released owner) else none
  | _, _ => none

/-- What the registry holds for the hint. -/
def bundle (lib : KernelLib Regs Rdma) : HintLife Regs Rdma -> Option (HeapBundler Regs Rdma)
  | .live _ reg => some (reg.bundler lib)
  | _ => none

end HintLife

def lifeStep (key : UInt64) (life : HintLife Regs Rdma) (e : Event Regs Rdma) :
    Option (HintLife Regs Rdma) :=
  if e.hint = some key then life.next e else some life

def lifeOf (past : List (Event Regs Rdma)) (key : UInt64) : Option (HintLife Regs Rdma) :=
  past.foldlM (lifeStep key) .fresh

theorem lifeOf_snoc (past : List (Event Regs Rdma)) (e : Event Regs Rdma) (key : UInt64) :
    lifeOf (past ++ [e]) key = (lifeOf past key).bind fun life => lifeStep key life e := by
  unfold lifeOf
  rw [List.foldlM_append]
  simp only [List.foldlM_cons, List.foldlM_nil, bind_pure]
  rfl

theorem released_silent {key : UInt64} {owner : Nat} {later : List (Event Regs Rdma)}
    {life : HintLife Regs Rdma}
    (h : later.foldlM (lifeStep key) (.released owner) = some life) :
    life = .released owner ∧ forall e, e ∈ later -> e.hint ≠ some key := by
  induction later with
  | nil =>
      cases h
      exact ⟨rfl, fun e he => by cases he⟩
  | cons e rest ih =>
      have hother : e.hint ≠ some key := by
        intro hkey
        rw [List.foldlM_cons, lifeStep, if_pos hkey] at h
        cases h
      rw [List.foldlM_cons, lifeStep, if_neg hother] at h
      rcases ih h with ⟨hlife, hrest⟩
      refine ⟨hlife, fun e' he' => ?_⟩
      cases List.mem_cons.mp he' with
      | inl heq => rwa [heq]
      | inr hin => exact hrest e' hin

/-!
## The invariant
-/

def HintLife.Recorded (lib : KernelLib Regs Rdma) (s : ModuleState Regs Rdma bufSize)
    (past : List (Event Regs Rdma)) (key : UInt64) : HintLife Regs Rdma -> Prop
  | .fresh => (forall self, Event.issued self key ∉ past) ∧ s.bundle key = none
  | .issued owner => Event.issued owner key ∈ past ∧ key ≠ 0 ∧ s.bundle key = none
  | .live owner reg =>
      Event.registered owner key reg ∈ past ∧ key ≠ 0 ∧
        s.bundle key = some (reg.bundler lib)
  | .released owner =>
      (exists reg, Event.registered owner key reg ∈ past) ∧ key ≠ 0 ∧ s.bundle key = none

def Lived (lib : KernelLib Regs Rdma) (s : ModuleState Regs Rdma bufSize)
    (past : List (Event Regs Rdma)) (key : UInt64) : Prop :=
  exists life, lifeOf past key = some life ∧ life.Recorded lib s past key

section Lives

variable {lib : KernelLib Regs Rdma} {s s' : ModuleState Regs Rdma bufSize}
variable {past : List (Event Regs Rdma)} {key : UInt64} {self : Nat}

theorem lived_init (lib : KernelLib Regs Rdma) (pool : Pool bufSize) (key : UInt64) :
    Lived lib (ModuleState.init pool : ModuleState Regs Rdma bufSize) [] key := by
  refine ⟨.fresh, rfl, ?_, rfl⟩
  intro self hin
  cases hin

theorem Lived.bundle_eq (h : Lived lib s past key) :
    exists life, lifeOf past key = some life ∧ s.bundle key = life.bundle lib := by
  rcases h with ⟨life, hlife, hrecorded⟩
  refine ⟨life, hlife, ?_⟩
  cases life with
  | fresh => exact hrecorded.2
  | issued owner => exact hrecorded.2.2
  | live owner reg => exact hrecorded.2.2
  | released owner => exact hrecorded.2.2

theorem Lived.zero (h : Lived lib s past 0) : lifeOf past 0 = some .fresh := by
  rcases h with ⟨life, hlife, hrecorded⟩
  cases life with
  | fresh => exact hlife
  | issued owner => exact absurd rfl hrecorded.2.1
  | live owner reg => exact absurd rfl hrecorded.2.1
  | released owner => exact absurd rfl hrecorded.2.1

theorem Lived.same (h : Lived lib s past key) (hbundle : s'.bundle key = s.bundle key) :
    Lived lib s' past key := by
  rcases h with ⟨life, hlife, hrecorded⟩
  refine ⟨life, hlife, ?_⟩
  cases life <;> unfold HintLife.Recorded at hrecorded ⊢ <;> rwa [hbundle]

theorem Lived.other (h : Lived lib s past key) {e : Event Regs Rdma} (he : e.hint ≠ some key)
    (hbundle : s'.bundle key = s.bundle key) : Lived lib s' (past ++ [e]) key := by
  rcases h with ⟨life, hlife, hrecorded⟩
  refine ⟨life, ?_, ?_⟩
  · rw [lifeOf_snoc, hlife, Option.bind_some, lifeStep, if_neg he]
  cases life with
  | fresh =>
      refine ⟨fun self hin => ?_, hbundle.trans hrecorded.2⟩
      cases List.mem_append.mp hin with
      | inl hpast => exact hrecorded.1 self hpast
      | inr hnow =>
          rw [← List.mem_singleton.mp hnow] at he
          exact he rfl
  | issued owner =>
      exact ⟨List.mem_append_left _ hrecorded.1, hrecorded.2.1, hbundle.trans hrecorded.2.2⟩
  | live owner reg =>
      exact ⟨List.mem_append_left _ hrecorded.1, hrecorded.2.1, hbundle.trans hrecorded.2.2⟩
  | released owner =>
      rcases hrecorded.1 with ⟨reg, hreg⟩
      exact ⟨⟨reg, List.mem_append_left _ hreg⟩, hrecorded.2.1, hbundle.trans hrecorded.2.2⟩

theorem Lived.moved {life life' : HintLife Regs Rdma} {e : Event Regs Rdma}
    (hlife : lifeOf past key = some life) (he : e.hint = some key)
    (hnext : life.next e = some life') (hrecorded : life'.Recorded lib s' (past ++ [e]) key) :
    Lived lib s' (past ++ [e]) key := by
  refine ⟨life', ?_, hrecorded⟩
  rw [lifeOf_snoc, hlife, Option.bind_some, lifeStep, if_pos he, hnext]

theorem Lived.issue (h : Lived lib s past key) (howned : KeysOwned lib s past)
    {new : UInt64} {idGen : IdFactory} (hid : s.idGen.allocOneId = some (new, idGen))
    (self : Nat) :
    Lived lib { s with idGen := idGen } (past ++ [.issued self new]) key := by
  by_cases hkey : new = key
  · subst hkey
    rcases h with ⟨life, hlife, hrecorded⟩
    rcases howned.fresh hid with ⟨hissued, hregistered⟩
    cases life with
    | fresh =>
        refine Lived.moved hlife rfl rfl ⟨?_, ?_, hrecorded.2⟩
        · exact List.mem_append_right _ (List.mem_singleton.mpr rfl)
        · rintro rfl
          have hnext := (IdFactory.allocOneId_toNat hid).1
          exact absurd hnext (Nat.succ_ne_zero _).symm
    | issued owner => exact absurd hrecorded.1 (hissued owner)
    | live owner reg => exact absurd hrecorded.1 (hregistered owner reg)
    | released owner =>
        rcases hrecorded.1 with ⟨reg, hreg⟩
        exact absurd hreg (hregistered owner reg)
  · exact h.other (fun he => hkey (Option.some.inj he)) rfl

theorem Lived.register (h : Lived lib s past key) (howned : KeysOwned lib s past)
    {new : UInt64} (hissued : Event.issued self new ∈ past)
    (hnever : forall self' reg, Event.registered self' new reg ∉ past)
    (reg : Registration Regs Rdma) :
    Lived lib (s.register lib new reg) (past ++ [.registered self new reg]) key := by
  by_cases hkey : new = key
  · subst hkey
    rcases h with ⟨life, hlife, hrecorded⟩
    cases life with
    | fresh => exact absurd hissued (hrecorded.1 self)
    | issued owner =>
        have howner : self = owner := howned.issued_unique owner self new hrecorded.1 hissued
        refine Lived.moved hlife rfl (if_pos howner) ⟨?_, hrecorded.2.1, ?_⟩
        · rw [howner]
          exact List.mem_append_right _ (List.mem_singleton.mpr rfl)
        · rw [ModuleState.bundle_register, if_pos rfl]
    | live owner reg' => exact absurd hrecorded.1 (hnever owner reg')
    | released owner =>
        rcases hrecorded.1 with ⟨reg', hreg⟩
        exact absurd hreg (hnever owner reg')
  · refine h.other (fun he => hkey (Option.some.inj he)) ?_
    rw [ModuleState.bundle_register, if_neg (Ne.symm hkey)]

theorem Lived.adopt (h : Lived lib s past key) (howned : KeysOwned lib s past)
    {hint : UInt64} {reg : Registration Regs Rdma}
    (hreg : Event.registered self hint reg ∈ past)
    (hb : s.bundle hint = some (reg.bundler lib)) (hbundle : s'.bundle key = s.bundle key) :
    Lived lib s' (past ++ [.adopted self hint]) key := by
  by_cases hkey : hint = key
  · subst hkey
    rcases h with ⟨life, hlife, hrecorded⟩
    cases life with
    | fresh =>
        rw [hrecorded.2] at hb
        cases hb
    | issued owner =>
        rw [hrecorded.2.2] at hb
        cases hb
    | released owner =>
        rw [hrecorded.2.2] at hb
        cases hb
    | live owner reg' =>
        have howner := (howned.registered_unique owner self hint reg' reg hrecorded.1 hreg).1
        exact Lived.moved hlife rfl (if_pos howner)
          ⟨List.mem_append_left _ hrecorded.1, hrecorded.2.1, hbundle.trans hrecorded.2.2⟩
  · exact h.other (fun he => hkey (Option.some.inj he)) hbundle

theorem Lived.release (h : Lived lib s past key) (howned : KeysOwned lib s past)
    {hint : UInt64} {reg : Registration Regs Rdma}
    (hreg : Event.registered self hint reg ∈ past)
    (hb : s.bundle hint = some (reg.bundler lib))
    (hbundle : forall key, s'.bundle key = if key = hint then none else s.bundle key) :
    Lived lib s' (past ++ [.unregistered self hint]) key := by
  by_cases hkey : hint = key
  · subst hkey
    rcases h with ⟨life, hlife, hrecorded⟩
    cases life with
    | fresh =>
        rw [hrecorded.2] at hb
        cases hb
    | issued owner =>
        rw [hrecorded.2.2] at hb
        cases hb
    | released owner =>
        rw [hrecorded.2.2] at hb
        cases hb
    | live owner reg' =>
        have howner := (howned.registered_unique owner self hint reg' reg hrecorded.1 hreg).1
        refine Lived.moved hlife rfl (if_pos howner) ⟨⟨reg', ?_⟩, hrecorded.2.1, ?_⟩
        · exact List.mem_append_left _ hrecorded.1
        · rw [hbundle, if_pos rfl]
  · refine h.other (fun he => hkey (Option.some.inj he)) ?_
    rw [hbundle, if_neg (Ne.symm hkey)]

end Lives

/-!
## Steps and runs
-/

section Runs

variable {lib : KernelLib Regs Rdma} {m m' : Machine Regs Rdma bufSize}
variable {past now : List (Event Regs Rdma)} {key : UInt64} {self : Nat}
variable {allowed : Request -> (o : KernelOp Regs Rdma) -> o.Res -> Prop}

theorem Lived.serve (h : Lived lib m.state past key) (howned : MachineOwned lib allowed m past)
    (env : Surroundings Regs Rdma) {req : Request} {o : KernelOp Regs Rdma}
    {k : o.Res -> KProg Regs Rdma Int} (hrunning : m.running self = some (req, .call o k)) :
    Lived lib (serve lib self env m.state o).2.1 (past ++ (serve lib self env m.state o).2.2)
      key := by
  have hmay := (howned.command self req _ hrunning).1
  have hhand := howned.keys.hand_own self
  cases o using KernelOp.byKind with
  | external o ho =>
      rw [serve_external lib self env m.state ho, List.append_nil]
      exact h
  | getPrivateHint =>
      simp only [Kernel.serve, List.append_nil]
      exact h
  | queryDescriptorBuf hint =>
      simp only [Kernel.serve, List.append_nil]
      exact h
  | pushPublicHeap heap =>
      simp only [Kernel.serve, List.append_nil]
      exact h.same rfl
  | allocOneId =>
      cases hid : m.state.idGen.allocOneId with
      | none =>
          rw [serve_allocOneId_none lib self env m.state hid, List.append_nil]
          exact h
      | some next =>
          rcases next with ⟨new, idGen⟩
          rw [serve_allocOneId_some lib self env m.state hid]
          exact h.issue howned.keys hid self
  | addBundler new heapStart rdmaMeta =>
      have hallocated : inHand past self = .allocated new := hmay
      rw [hallocated] at hhand
      exact h.register howned.keys hhand.1 hhand.2 _
  | setPrivateHint hint =>
      rcases hmay with ⟨_, base, _, hheld⟩
      have hheld : inHand past self = .held hint base.toNat := hheld
      rw [hheld] at hhand
      rcases hhand with ⟨reg, hreg, _, hb, _⟩
      exact h.adopt howned.keys hreg hb rfl
  | unregister hint =>
      rcases hmay with ⟨_, heapStart, hheld⟩
      have hheld : inHand past self = .held hint heapStart := hheld
      rw [hheld] at hhand
      rcases hhand with ⟨reg, hreg, _, hb, _⟩
      exact h.release howned.keys hreg hb (m.state.bundle_unregister hint)

theorem Lived.close (h : Lived lib m.state past key) (howned : KeysOwned lib m.state past)
    (self : Nat) (env : Surroundings Regs Rdma) :
    Lived lib ((runAlone lib self env dropHandler m.state).2.1.setHandler self none)
      (past ++ ((runAlone lib self env dropHandler m.state).2.2 ++ [.closed self])) key := by
  rw [← List.append_assoc]
  refine Lived.other (s := (runAlone lib self env dropHandler m.state).2.1) ?_ (by simp [Event.hint])
    (ModuleState.bundle_setHandler _ self none key)
  rw [runAlone_dropHandler]
  cases hhint : m.state.hintOf self with
  | none =>
      simp only [List.append_nil]
      exact h
  | some hint =>
      rcases howned.hint_own self hint hhint with ⟨reg, hreg, hb⟩
      exact h.release howned hreg hb (m.state.bundle_unregister hint)

theorem Lived.step (h : Lived lib m.state past key) (howned : MachineOwned lib allowed m past)
    {a : Act Regs Rdma} (hstep : m.Step lib a m' now) : Lived lib m'.state (past ++ now) key := by
  cases hstep with
  | opened => exact h.other (by simp [Event.hint]) rfl
  | started self req hidle => exact h.other (by simp [Event.hint]) rfl
  | finished self env req result hrunning => exact h.other (by simp [Event.hint]) rfl
  | answered self env req o k hrunning hadmits => exact h.serve howned env hrunning
  | closed self env hidle => exact h.close howned.keys self env

theorem lived_of_run {pool : Pool bufSize} {acts : List (Act Regs Rdma)}
    (hrun : runFrom (Machine.step lib) (Machine.init pool) acts = some (m, past))
    (key : UInt64) : Lived lib m.state past key := by
  have hstep : forall (m : Machine Regs Rdma bufSize) (past : List (Event Regs Rdma))
      (a : Act Regs Rdma) (m' : Machine Regs Rdma bufSize) (now : List (Event Regs Rdma)),
      MachineOwned lib (fun _ _ _ => True) m past ∧ Lived lib m.state past key ->
        Machine.step lib m a = some (m', now) ->
          MachineOwned lib (fun _ _ _ => True) m' (past ++ now) ∧
            Lived lib m'.state (past ++ now) key := by
    intro m past a m' now h hs
    exact ⟨h.1.step (fun _ _ _ _ _ _ _ _ => True.intro) (.of_step hs),
      h.2.step h.1 (.of_step hs)⟩
  have hinit : MachineOwned lib (fun _ _ _ => True) (Machine.init pool) [] ∧
      Lived lib (Machine.init pool : Machine Regs Rdma bufSize).state [] key :=
    ⟨machineOwned_init pool, lived_init lib pool key⟩
  exact (runFrom_invariant_free hstep hinit hrun).2

end Runs

theorem HintLife.next_unregistered {life life' : HintLife Regs Rdma} {self : Nat}
    {key : UInt64} (h : life.next (.unregistered self key) = some life') :
    life' = .released self := by
  cases life with
  | live owner reg =>
      simp only [HintLife.next] at h
      split at h
      · next howner =>
          cases h
          rw [howner]
      · cases h
  | fresh => cases h
  | issued owner => cases h
  | released owner => cases h

/-- In every run each hint has one life: its events come in order and from one
handle, none comes after its release, and the registry holds exactly the hints
that are live, each with the heap that was captured when it was registered. -/
theorem hint_lives (lib : KernelLib Regs Rdma) (pool : Pool bufSize)
    {acts : List (Act Regs Rdma)} {m : Machine Regs Rdma bufSize}
    {past : List (Event Regs Rdma)}
    (hrun : runFrom (Machine.step lib) (Machine.init pool) acts = some (m, past))
    (key : UInt64) :
    (exists life, lifeOf past key = some life ∧ m.state.bundle key = life.bundle lib) ∧
      forall before self later, past = before ++ .unregistered self key :: later ->
        lifeOf past key = some (.released self) ∧
          forall e, e ∈ later -> e.hint ≠ some key := by
  rcases (lived_of_run hrun key).bundle_eq with ⟨life, hlife, hbundle⟩
  refine ⟨⟨life, hlife, hbundle⟩, ?_⟩
  rintro before self later rfl
  have hlife' := hlife
  unfold lifeOf at hlife'
  rw [List.foldlM_append] at hlife'
  rcases Option.bind_eq_some_iff.mp hlife' with ⟨old, _, hafter⟩
  rw [List.foldlM_cons] at hafter
  rcases Option.bind_eq_some_iff.mp hafter with ⟨new, hnew, hlater⟩
  have hmoved : old.next (.unregistered self key) = some new := by
    rwa [lifeStep, if_pos (by rfl)] at hnew
  rw [HintLife.next_unregistered hmoved] at hlater
  rcases released_silent hlater with ⟨rfl, hsilent⟩
  exact ⟨hlife, hsilent⟩

theorem hint_lives_closed :
    exists m past,
      runFrom (Machine.step plainLib) (Machine.init (Pool.zeroed 128))
          (registerActs ++ [.closeHandle 0 (smallSurroundings none 0)]) = some (m, past) ∧
        m.state.bundle 1 = none ∧
        exists life, lifeOf past 1 = some life ∧ m.state.bundle 1 = life.bundle plainLib := by
  have hobserved :
      (runFrom (Machine.step plainLib) (Machine.init (Pool.zeroed 128))
        (registerActs ++ [.closeHandle 0 (smallSurroundings none 0)])).map
        (fun r => (r.1.state.bundle 1).isNone) = some true := by
    decide +kernel
  rcases Option.map_eq_some_iff.mp hobserved with ⟨⟨m, past⟩, hrun, hnone⟩
  exact ⟨m, past, hrun, Option.isNone_iff_eq_none.mp hnone,
    (hint_lives plainLib (Pool.zeroed 128) hrun 1).1⟩

/-!
## What a query is told
-/

/-- The reply to a request, and its length, as the history has it. -/
def replyOf (lib : KernelLib Regs Rdma) (past : List (Event Regs Rdma))
    (input output : Bytes) : Bytes × Nat :=
  match (lib.usize.decode input).bind (lifeOf past) with
  | some (.live _ reg) =>
      let reply : HeapDescriptorQueryReply :=
        { pa := reg.buf
          sz := UInt64.ofNat (reg.heap.descriptor.serializationBufLen lib)
          ready := true }
      (writeHead (lib.queryReply.encode reply) output, lib.queryReply.bufLen reply)
  | _ => (output, 0)

section Queries

variable {lib : KernelLib Regs Rdma} {s : ModuleState Regs Rdma bufSize}
variable {past : List (Event Regs Rdma)}

theorem run_handleQuery_replyOf (h : forall key, Lived lib s past key) (self : Nat)
    (env : Surroundings Regs Rdma) (input output : Bytes) :
    runAlone lib self env (handleQuery lib input output) s =
      (.returned (replyOf lib past input output), s, []) := by
  rw [run_handleQuery, queryDescriptorBuf_eq]
  unfold replyOf
  cases hdecode : lib.usize.decode input with
  | none =>
      have hzero : s.bundle 0 = none := by
        rcases (h 0).bundle_eq with ⟨life, hlife, hbundle⟩
        rw [(h 0).zero] at hlife
        cases hlife
        exact hbundle
      rw [Option.getD_none, hzero]
      rfl
  | some key =>
      rcases (h key).bundle_eq with ⟨life, hlife, hbundle⟩
      rw [Option.getD_some, Option.bind_some, hbundle, hlife]
      cases life with
      | live owner reg => rfl
      | fresh => rfl
      | issued owner => rfl
      | released owner => rfl

theorem queryReply_size_pos (lib : KernelLib Regs Rdma) : 0 < lib.queryReply.size := by
  by_contra hzero
  let reply : HeapDescriptorQueryReply := { pa := 0, sz := 0, ready := true }
  have hnil : lib.queryReply.encode reply = [] := by
    apply List.eq_nil_of_length_eq_zero
    rw [lib.queryReply.length_encode, lib.queryReply.bufLen_eq]
    exact Nat.eq_zero_of_not_pos hzero
  have hdecode := lib.queryReply.decode_encode_nil reply
  rw [hnil, decode_queryReply_nil] at hdecode
  cases hdecode

theorem replyOf_pos_iff (lib : KernelLib Regs Rdma) (past : List (Event Regs Rdma))
    (input output : Bytes) :
    0 < (replyOf lib past input output).2 <->
      exists key owner reg, lib.usize.decode input = some key ∧
        lifeOf past key = some (.live owner reg) := by
  unfold replyOf
  constructor
  · intro hpos
    split at hpos
    · next owner reg hlife =>
        rcases Option.bind_eq_some_iff.mp hlife with ⟨key, hdecode, hlive⟩
        exact ⟨key, owner, reg, hdecode, hlive⟩
    · exact absurd hpos (lt_irrefl 0)
  · rintro ⟨key, owner, reg, hdecode, hlive⟩
    rw [hdecode, Option.bind_some, hlive]
    show 0 < lib.queryReply.bufLen _
    rw [lib.queryReply.bufLen_eq]
    exact queryReply_size_pos lib

end Queries

/-- In every run, whatever bytes a request holds, a query is answered exactly if
the request names a hint that is live, and then with the buffer and the length of
the registration of this hint. -/
theorem query_follows_life (lib : KernelLib Regs Rdma) (pool : Pool bufSize)
    {acts : List (Act Regs Rdma)} {m : Machine Regs Rdma bufSize}
    {past : List (Event Regs Rdma)}
    (hrun : runFrom (Machine.step lib) (Machine.init pool) acts = some (m, past))
    (self : Nat) (env : Surroundings Regs Rdma) (input output : Bytes) :
    runAlone lib self env (handleQuery lib input output) m.state =
        (.returned (replyOf lib past input output), m.state, []) ∧
      (0 < (replyOf lib past input output).2 <->
        exists key owner reg, lib.usize.decode input = some key ∧
          lifeOf past key = some (.live owner reg)) :=
  ⟨run_handleQuery_replyOf (lived_of_run hrun) self env input output,
    replyOf_pos_iff lib past input output⟩

theorem query_follows_life_register :
    exists m past,
      runFrom (Machine.step plainLib) (Machine.init (Pool.zeroed 128)) registerActs =
          some (m, past) ∧
        (0 < (replyOf plainLib past (plainLib.usize.encode 1) []).2 <->
          exists key owner reg, plainLib.usize.decode (plainLib.usize.encode 1) = some key ∧
            lifeOf past key = some (.live owner reg)) := by
  have hobserved :
      (runFrom (Machine.step plainLib) (Machine.init (Pool.zeroed 128)) registerActs).map
        (fun r => r.1.state.hintOf 0) = some (some 1) := by
    rfl
  rcases Option.map_eq_some_iff.mp hobserved with ⟨⟨m, past⟩, hrun, _⟩
  exact ⟨m, past, hrun,
    (query_follows_life plainLib (Pool.zeroed 128) hrun 0 (smallSurroundings none 0) _ []).2⟩

end Kernel
end Dmerge
