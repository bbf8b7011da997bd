import Dmerge.Kernel.PullProtocol
import Dmerge.Kernel.Buffers
import Dmerge.Producer.AddressFidelity

/-!
# A pull against the machine it queries

A pull runs on one machine while the machine that it queries goes on with
commands of its own.  The query is answered by the RPC worker of the queried
machine; the read of the named buffer is made by its network card, at any later
time and without its taking part.
-/

namespace Dmerge
namespace Kernel

open Foundation Memory Descriptors Producer

variable {Regs Rdma : Type} {bufSize : Nat}

/-!
## The system
-/

inductive QueryWire where
  | idle
  | sent (payload : Bytes)
  | replied (reply : Bytes)
  deriving DecidableEq, Repr

inductive ReadWire where
  | idle
  | posted (pa sz : UInt64)
  | done (bytes : Bytes)
  deriving DecidableEq, Repr

/-- A pull in progress: what is left of the command, its messages, and the
pulled heaps of its handle. -/
structure Pull (Regs Rdma : Type) where
  rest : KProg Regs Rdma Int
  query : QueryWire
  read : ReadWire
  publicHeaps : List (HeapDataStruct Regs Rdma)

namespace Pull

/-- A pull that has not started. -/
def start (lib : KernelLib Regs Rdma) (hint machineId : UInt64) (eagerFetch : Bool) :
    Pull Regs Rdma where
  rest := syscallRmap lib hint machineId eagerFetch
  query := .idle
  read := .idle
  publicHeaps := []

/-- The answer to a call of the pull.  A wait may elapse or fail at any time; it
ends well only when the reply, or the read, has come. -/
def serve (env : Answers Regs Rdma) (p : Pull Regs Rdma) :
    (o : KernelOp Regs Rdma) -> Option (o.Res × Pull Regs Rdma)
  | .syncCall session mySession rpc payload =>
      let sent := env (.syncCall session mySession rpc payload)
      some (sent, if sent = true then { p with query := .sent payload } else p)
  | .blockOnCaller timeoutUsec =>
      match env (.blockOnCaller timeoutUsec), p.query with
      | none, _ => some (none, p)
      | some _, .replied reply => some (some reply, p)
      | some _, _ => none
  | .postRead session pa sz =>
      let posted := env (.postRead session pa sz)
      some (posted, if posted = true then { p with read := .posted pa sz } else p)
  | .blockOnRead timeoutUsec =>
      match env (.blockOnRead timeoutUsec), p.read with
      | .elapsed, _ => some (.elapsed, p)
      | .failed, _ => some (.failed, p)
      | .done _, .done bytes => some (.done bytes, p)
      | .done _, _ => none
  | .pushPublicHeap heap => some ((), { p with publicHeaps := p.publicHeaps ++ [heap] })
  | o => some (env o, p)

/-- The buffer that the pull still relies on: the one named by the reply, until
it is read or the pull has ended. -/
def named (lib : KernelLib Regs Rdma) (p : Pull Regs Rdma) : Option UInt64 :=
  if p.rest.outcome.isSome then none
  else
    match p.read, p.query with
    | .posted pa _, _ => some pa
    | .idle, .replied reply => (lib.queryReply.decode reply).map fun d => d.pa
    | _, _ => none

end Pull

structure Race (Regs Rdma : Type) (bufSize : Nat) where
  owner : Machine Regs Rdma bufSize
  pull : Pull Regs Rdma

inductive RaceAct (Regs Rdma : Type) where
  /-- The queried machine goes on. -/
  | owner (a : Act Regs Rdma)
  /-- The RPC worker of the queried machine answers the query. -/
  | answer (env : Surroundings Regs Rdma) (output : Bytes)
  /-- The network card of the queried machine makes the read. -/
  | read
  /-- The pull goes on. -/
  | pull (env : Answers Regs Rdma)

namespace Race

def init (lib : KernelLib Regs Rdma) (pool : Pool bufSize) (hint machineId : UInt64)
    (eagerFetch : Bool) : Race Regs Rdma bufSize where
  owner := Machine.init pool
  pull := Pull.start lib hint machineId eagerFetch

/-- One step, with the events of the queried machine.  The RPC worker sends as
many bytes of its output buffer as the handler returns. -/
def step (lib : KernelLib Regs Rdma) (s : Race Regs Rdma bufSize) :
    RaceAct Regs Rdma -> Option (Race Regs Rdma bufSize × List (Event Regs Rdma))
  | .owner a =>
      (s.owner.step lib a).map fun (owner, now) => ({ s with owner := owner }, now)
  | .answer env output =>
      match s.pull.query with
      | .sent payload =>
          if lib.queryReply.size ≤ output.length then
            match runAlone lib 0 env (handleQuery lib payload output) s.owner.state with
            | (.returned (bytes, n), state, now) =>
                some
                  ({ owner := { s.owner with state := state }
                     pull := { s.pull with query := .replied (bytes.take n) } }, now)
            | (.panicked _, _, _) => none
          else none
      | _ => none
  | .read =>
      match s.pull.read with
      | .posted pa sz =>
          some
            ({ s with
                pull := { s.pull with
                  read := .done ((s.owner.state.pool.bytes pa).take sz.toNat) } }, [])
      | _ => none
  | .pull env =>
      match s.pull.rest with
      | .call o k =>
          (s.pull.serve env o).map fun (r, pull) =>
            ({ s with pull := { pull with rest := k r } }, [])
      | _ => none

end Race

/-- The queried machine registers nothing in the buffer that the pull still
relies on, and under the hint only a descriptor that fits its buffer. -/
def LeavesNamed (lib : KernelLib Regs Rdma) (hint : UInt64) (s : Race Regs Rdma bufSize)
    (a : RaceAct Regs Rdma) : Prop :=
  forall self env req key heapStart rdmaMeta (k : Unit -> KProg Regs Rdma Int),
    a = .owner (.resume self env) ->
      s.owner.running self = some (req, .call (.addBundler key heapStart rdmaMeta) k) ->
        s.pull.named lib ≠ some env.buf ∧
          (key = hint -> FitsBuffer lib bufSize
            (ShadowHeap.new env.task rdmaMeta { startVirtAddr := heapStart }).descriptor)

/-!
## What the messages say
-/

def Encodes (lib : KernelLib Regs Rdma) (hint : UInt64) (past : List (Event Regs Rdma))
    (bytes : Bytes) : Prop :=
  exists self reg, Event.registered self hint reg ∈ past ∧
    bytes = reg.heap.descriptor.encode lib

/-- A location whose bytes encode a descriptor that was registered under the
hint. -/
def Names (lib : KernelLib Regs Rdma) (hint : UInt64) (pool : Pool bufSize)
    (past : List (Event Regs Rdma)) (pa sz : UInt64) : Prop :=
  Encodes lib hint past ((pool.bytes pa).take sz.toNat)

def Coupled (lib : KernelLib Regs Rdma) (hint : UInt64) (pool : Pool bufSize)
    (past : List (Event Regs Rdma)) (p : Pull Regs Rdma) : PullPhase Regs Rdma -> Prop
  | .fresh => p.query = .idle ∧ p.read = .idle ∧ p.publicHeaps = []
  | .asked =>
      (p.query = .sent (lib.usize.encode hint) ∨ exists reply,
        p.query = .replied reply ∧
          forall d, lib.queryReply.decode reply = some d -> Names lib hint pool past d.pa d.sz) ∧
        p.read = .idle ∧ p.publicHeaps = []
  | .replied reply =>
      p.query = .replied reply ∧
        (forall d, lib.queryReply.decode reply = some d -> Names lib hint pool past d.pa d.sz) ∧
        p.read = .idle ∧ p.publicHeaps = []
  | .posted d =>
      ((p.read = .posted d.pa d.sz ∧ Names lib hint pool past d.pa d.sz) ∨ exists bytes,
        p.read = .done bytes ∧ Encodes lib hint past bytes) ∧ p.publicHeaps = []
  | .fetched descBuf => Encodes lib hint past descBuf ∧ p.publicHeaps = []
  | .pushed heap =>
      p.publicHeaps = [heap] ∧ heap.id = hint ∧ exists self reg,
        Event.registered self hint reg ∈ past ∧
          heap.descriptor = reg.heap.descriptor.toHeapDescriptor
  | .failed => True

def RaceCoupled (lib : KernelLib Regs Rdma) (hint : UInt64) (g : PullPhase Regs Rdma)
    (w : Race Regs Rdma bufSize × List (Event Regs Rdma)) : Prop :=
  Coupled lib hint w.1.owner.state.pool w.2 w.1.pull g

structure RaceInv (lib : KernelLib Regs Rdma) (hint machineId : UInt64) (s : Race Regs Rdma bufSize)
    (past : List (Event Regs Rdma)) : Prop where
  owned : MachineOwned lib (fun _ _ _ => True) s.owner past
  stored : Stored lib s.owner.state
  fits : forall self reg, Event.registered self hint reg ∈ past ->
    FitsBuffer lib bufSize reg.heap.descriptor
  follows : s.pull.rest.Follows (pullProtocol lib hint machineId) PullEnds (RaceCoupled lib hint) (s, past)

section Messages

variable {lib : KernelLib Regs Rdma} {hint machineId : UInt64} {pool pool' : Pool bufSize}
variable {past now : List (Event Regs Rdma)}

theorem Encodes.mono {bytes : Bytes} (h : Encodes lib hint past bytes) :
    Encodes lib hint (past ++ now) bytes := by
  rcases h with ⟨self, reg, hin, hbytes⟩
  exact ⟨self, reg, List.mem_append_left _ hin, hbytes⟩

theorem Names.mono {pa sz : UInt64} (h : Names lib hint pool past pa sz)
    (hsame : pool'.bytes pa = pool.bytes pa) : Names lib hint pool' (past ++ now) pa sz := by
  unfold Names
  rw [hsame]
  exact Encodes.mono h

theorem Encodes.deserialize {bytes : Bytes} (h : Encodes lib hint past bytes)
    {des : HeapDescriptor Regs Rdma} (hdes : HeapDescriptor.deserialize lib bytes = .ok des) :
    exists self reg, Event.registered self hint reg ∈ past ∧
      des = reg.heap.descriptor.toHeapDescriptor := by
  rcases h with ⟨self, reg, hin, rfl⟩
  have hround := deserialize_shadowHeap lib reg.task reg.rdmaMeta
    { startVirtAddr := reg.heapStartAddr } []
  rw [List.append_nil] at hround
  have hok : Except.ok des = Except.ok reg.heap.descriptor.toHeapDescriptor :=
    hdes.symm.trans hround
  injection hok with hsame
  exact ⟨self, reg, hin, hsame⟩

theorem Coupled.stable {p : Pull Regs Rdma} {g : PullPhase Regs Rdma}
    (h : Coupled lib hint pool past p g) (hunfinished : p.rest.outcome = none)
    (hsame : forall buf, p.named lib = some buf -> pool'.bytes buf = pool.bytes buf) :
    Coupled lib hint pool' (past ++ now) p g := by
  have hreply : forall reply, p.query = .replied reply -> p.read = .idle ->
      (forall d, lib.queryReply.decode reply = some d -> Names lib hint pool past d.pa d.sz) ->
      forall d, lib.queryReply.decode reply = some d ->
        Names lib hint pool' (past ++ now) d.pa d.sz := by
    intro reply hquery hread hnames d hd
    apply (hnames d hd).mono
    apply hsame
    simp only [Pull.named, hunfinished, hread, hquery, hd]
    rfl
  cases g with
  | fresh => exact h
  | asked =>
      rcases h with ⟨hsent | ⟨reply, hquery, hnames⟩, hread, hheaps⟩
      · exact ⟨Or.inl hsent, hread, hheaps⟩
      · exact ⟨Or.inr ⟨reply, hquery, hreply reply hquery hread hnames⟩, hread, hheaps⟩
  | replied reply =>
      rcases h with ⟨hquery, hnames, hread, hheaps⟩
      exact ⟨hquery, hreply reply hquery hread hnames, hread, hheaps⟩
  | posted d =>
      rcases h with ⟨⟨hread, hnames⟩ | ⟨bytes, hread, hbytes⟩, hheaps⟩
      · refine ⟨Or.inl ⟨hread, hnames.mono ?_⟩, hheaps⟩
        apply hsame
        simp only [Pull.named, hunfinished, hread]
        rfl
      · exact ⟨Or.inr ⟨bytes, hread, hbytes.mono⟩, hheaps⟩
  | fetched descBuf => exact ⟨h.1.mono, h.2⟩
  | pushed heap =>
      rcases h with ⟨hheaps, hid, self, reg, hin, hdes⟩
      exact ⟨hheaps, hid, self, reg, List.mem_append_left _ hin, hdes⟩
  | failed => exact True.intro

theorem follows_ended {s : Race Regs Rdma bufSize} (owner : Machine Regs Rdma bufSize)
    (h : s.pull.rest.Follows (pullProtocol lib hint machineId) PullEnds (RaceCoupled lib hint) (s, past))
    (hended : s.pull.rest.outcome ≠ none) :
    s.pull.rest.Follows (pullProtocol lib hint machineId) PullEnds (RaceCoupled lib hint)
      ({ s with owner := owner }, past ++ now) := by
  rcases h with ⟨g, hconf, hcoupled⟩
  cases hrest : s.pull.rest with
  | call o k =>
      rw [hrest] at hended
      exact absurd rfl hended
  | panic msg =>
      refine ⟨.failed, fun hend => ?_, True.intro⟩
      cases hend
  | ret r =>
      rw [hrest] at hconf
      by_cases hzero : r = 0
      · rcases hconf (by rw [hzero]) with ⟨heap, rfl⟩
        rcases hcoupled with ⟨hheaps, hid, self, reg, hin, hdes⟩
        exact ⟨.pushed heap, fun _ => ⟨heap, rfl⟩, hheaps, hid, self, reg,
          List.mem_append_left _ hin, hdes⟩
      · refine ⟨.failed, fun hend => ?_, True.intro⟩
        injection hend with hr
        exact absurd hr hzero

theorem names_of_query {s state : ModuleState Regs Rdma bufSize} {env : Surroundings Regs Rdma}
    {output bytes : Bytes} {n : Nat} {now : List (Event Regs Rdma)}
    (hkeys : KeysOwned lib s past) (hstored : Stored lib s)
    (hfits : forall self reg, Event.registered self hint reg ∈ past ->
      FitsBuffer lib bufSize reg.heap.descriptor)
    (hlong : lib.queryReply.size ≤ output.length)
    (hrun : runAlone lib 0 env (handleQuery lib (lib.usize.encode hint) output) s =
      (.returned (bytes, n), state, now)) :
    state = s ∧ now = [] ∧
      forall d, lib.queryReply.decode (bytes.take n) = some d ->
        Names lib hint s.pool past d.pa d.sz := by
  have hdecode : lib.usize.decode (lib.usize.encode hint) = some hint :=
    Codec.decode_encode_nil lib.usize.toCodec hint
  rw [run_handleQuery, hdecode, Option.getD_some] at hrun
  cases hb : s.bundle hint with
  | none =>
      have hlookup : s.service.registeredHeap.lookup hint = none := hb
      simp only [ShadowHeapService.queryDescriptorBuf, hlookup, Option.map_none] at hrun
      cases hrun
      refine ⟨rfl, rfl, fun d hd => ?_⟩
      rw [List.take_zero, decode_queryReply_nil] at hd
      cases hd
  | some b =>
      have hlookup : s.service.registeredHeap.lookup hint = some b := hb
      simp only [ShadowHeapService.queryDescriptorBuf, hlookup, Option.map_some] at hrun
      cases hrun
      refine ⟨rfl, rfl, fun d hd => ?_⟩
      rw [take_writeHead lib.queryReply _ hlong, Codec.decode_encode_nil] at hd
      cases hd
      rcases hkeys.bundle_registered hint b hb with ⟨self, reg, hin, rfl⟩
      have hfit := hfits self reg hin
      refine ⟨self, reg, hin, ?_⟩
      have hsz : (UInt64.ofNat (reg.bundler lib).serializedBufLen).toNat =
          (reg.bundler lib).serializedBufLen :=
        UInt64.toNat_ofNat_of_lt' (lt_of_le_of_lt hfit.1 hfit.2)
      show List.take (UInt64.ofNat (reg.bundler lib).serializedBufLen).toNat _ = _
      rw [hsz]
      exact (hstored hint _ hb).2 hfit.1

end Messages

/-!
## One step of the system
-/

section Steps

variable {lib : KernelLib Regs Rdma} {hint machineId : UInt64} {s : Race Regs Rdma bufSize}
variable {past now : List (Event Regs Rdma)}

theorem RaceInv.owner (h : RaceInv lib hint machineId s past) {a : Act Regs Rdma}
    {owner : Machine Regs Rdma bufSize} (hleaves : LeavesNamed lib hint s (.owner a))
    (hstep : s.owner.Step lib a owner now) :
    RaceInv lib hint machineId { s with owner := owner } (past ++ now) := by
  have hsame : forall buf, s.pull.named lib = some buf ->
      owner.state.pool.bytes buf = s.owner.state.pool.bytes buf := by
    intro buf hnamed
    cases pool_of_step hstep with
    | inl hpool => rw [hpool]
    | inr hregister =>
        rcases hregister with ⟨self, env, req, key, heapStart, rdmaMeta, k, ha, hrunning, hbytes⟩
        apply hbytes
        rintro rfl
        exact (hleaves self env req key heapStart rdmaMeta k (by rw [ha]) hrunning).1 hnamed
  refine ⟨h.owned.step (fun _ _ _ _ _ _ _ _ => True.intro) hstep, h.stored.step hstep, ?_, ?_⟩
  · intro self reg hin
    rw [List.mem_append] at hin
    cases hin with
    | inl hpast => exact h.fits self reg hpast
    | inr hnow =>
        rcases registered_of_step hstep hnow
          with ⟨env, req, heapStart, rdmaMeta, k, ha, hrunning, rfl⟩
        exact (hleaves self env req hint heapStart rdmaMeta k (by rw [ha]) hrunning).2 rfl
  · by_cases hended : s.pull.rest.outcome = none
    · exact h.follows.interfere fun g hg => Coupled.stable hg hended hsame
    · have hfollows : s.pull.rest.Follows (pullProtocol lib hint machineId) PullEnds
          (RaceCoupled lib hint) ({ s with owner := owner }, past ++ now) :=
        follows_ended owner h.follows hended
      exact hfollows

theorem RaceInv.answer (h : RaceInv lib hint machineId s past) {env : Surroundings Regs Rdma}
    {payload output bytes : Bytes} {n : Nat} {state : ModuleState Regs Rdma bufSize}
    (hsent : s.pull.query = .sent payload)
    (hlong : lib.queryReply.size ≤ output.length)
    (hrun : runAlone lib 0 env (handleQuery lib payload output) s.owner.state =
      (.returned (bytes, n), state, now)) :
    RaceInv lib hint machineId
      { owner := { s.owner with state := state }
        pull := { s.pull with query := .replied (bytes.take n) } } (past ++ now) := by
  have hquiet : state = s.owner.state ∧ now = [] := by
    rw [run_handleQuery] at hrun
    cases hbuf : s.owner.state.service.queryDescriptorBuf
        ((lib.usize.decode payload).getD 0) with
    | none =>
        rw [hbuf] at hrun
        cases hrun
        exact ⟨rfl, rfl⟩
    | some buf =>
        rw [hbuf] at hrun
        cases hrun
        exact ⟨rfl, rfl⟩
  rcases hquiet with ⟨rfl, rfl⟩
  rw [List.append_nil]
  refine ⟨h.owned, h.stored, h.fits, ?_⟩
  refine h.follows.interfere (fun g hg => ?_)
  have hcoupled : Coupled lib hint s.owner.state.pool past s.pull g := hg
  cases g with
  | fresh =>
      rw [hcoupled.1] at hsent
      cases hsent
  | asked =>
      rcases hcoupled with ⟨hquery | ⟨reply, hquery, _⟩, hread, hheaps⟩
      · rw [hquery] at hsent
        cases hsent
        have hnames := (names_of_query h.owned.keys h.stored h.fits hlong hrun).2.2
        exact ⟨Or.inr ⟨_, rfl, hnames⟩, hread, hheaps⟩
      · rw [hquery] at hsent
        cases hsent
  | replied reply =>
      rw [hcoupled.1] at hsent
      cases hsent
  | posted d => exact hcoupled
  | fetched descBuf => exact hcoupled
  | pushed heap => exact hcoupled
  | failed => exact True.intro

theorem RaceInv.read (h : RaceInv lib hint machineId s past) {pa sz : UInt64}
    (hposted : s.pull.read = .posted pa sz) :
    RaceInv lib hint machineId
      { s with
        pull := { s.pull with
          read := .done ((s.owner.state.pool.bytes pa).take sz.toNat) } } past := by
  refine ⟨h.owned, h.stored, h.fits, ?_⟩
  refine h.follows.interfere (fun g hg => ?_)
  have hcoupled : Coupled lib hint s.owner.state.pool past s.pull g := hg
  cases g with
  | fresh =>
      rw [hcoupled.2.1] at hposted
      cases hposted
  | asked =>
      rw [hcoupled.2.1] at hposted
      cases hposted
  | replied reply =>
      rw [hcoupled.2.2.1] at hposted
      cases hposted
  | posted d =>
      rcases hcoupled with ⟨⟨hread, hnames⟩ | ⟨bytes, hread, _⟩, hheaps⟩
      · rw [hread] at hposted
        cases hposted
        exact ⟨Or.inr ⟨_, rfl, hnames⟩, hheaps⟩
      · rw [hread] at hposted
        cases hposted
  | fetched descBuf => exact hcoupled
  | pushed heap => exact hcoupled
  | failed => exact True.intro

theorem coupled_serve {p p' : Pull Regs Rdma} {pool : Pool bufSize} {env : Answers Regs Rdma}
    {o : KernelOp Regs Rdma} {r : o.Res} {g : PullPhase Regs Rdma}
    (hserve : p.serve env o = some (r, p'))
    (hmay : (pullProtocol lib hint machineId).may g o) (hcoupled : Coupled lib hint pool past p g) :
    exists g', (pullProtocol lib hint machineId).next g o r g' ∧ Coupled lib hint pool past p' g' := by
  have hkeep : forall {o : KernelOp Regs Rdma} {r : o.Res}, o.Local ->
      some (env o, p) = some (r, p') ->
        exists g', (pullProtocol lib hint machineId).next g o r g' ∧ Coupled lib hint pool past p' g' := by
    intro o r ho hsame
    cases hsame
    refine ⟨g, ?_, hcoupled⟩
    cases o <;> first | exact rfl | exact ho.elim
  cases o with
  | syncCall session mySession rpc payload =>
      rcases hmay with ⟨rfl, _, _, rfl⟩
      rcases hcoupled with ⟨hquery, hread, hheaps⟩
      simp only [Pull.serve] at hserve
      cases hsent : env (.syncCall session mySession rpc (lib.usize.encode hint)) with
      | false =>
          rw [hsent] at hserve
          cases hserve
          exact ⟨.failed, rfl, True.intro⟩
      | true =>
          rw [hsent] at hserve
          cases hserve
          exact ⟨.asked, rfl, Or.inl rfl, hread, hheaps⟩
  | blockOnCaller timeoutUsec =>
      have hasked : g = .asked := hmay
      subst hasked
      rcases hcoupled with ⟨hquery, hread, hheaps⟩
      simp only [Pull.serve] at hserve
      split at hserve
      · cases hserve
        exact ⟨.failed, rfl, True.intro⟩
      · next hreplied =>
          cases hserve
          cases hquery with
          | inl hsent =>
              rw [hsent] at hreplied
              cases hreplied
          | inr hreply =>
              rcases hreply with ⟨reply, hquery, hnames⟩
              rw [hquery] at hreplied
              cases hreplied
              exact ⟨.replied _, rfl, hquery, hnames, hread, hheaps⟩
      · cases hserve
  | postRead session pa sz =>
      rcases hmay with ⟨reply, d, rfl, hd, _, rfl, rfl⟩
      rcases hcoupled with ⟨hquery, hnames, hread, hheaps⟩
      simp only [Pull.serve] at hserve
      cases hposted : env (.postRead session d.pa d.sz) with
      | false =>
          rw [hposted] at hserve
          cases hserve
          exact ⟨.failed, rfl, True.intro⟩
      | true =>
          rw [hposted] at hserve
          cases hserve
          exact ⟨.posted { pa := d.pa, sz := d.sz, ready := true }, rfl,
            Or.inl ⟨rfl, hnames d hd⟩, hheaps⟩
  | blockOnRead timeoutUsec =>
      rcases hmay with ⟨d, rfl⟩
      rcases hcoupled with ⟨hread, hheaps⟩
      simp only [Pull.serve] at hserve
      split at hserve
      · cases hserve
        exact ⟨.failed, rfl, True.intro⟩
      · cases hserve
        exact ⟨.failed, rfl, True.intro⟩
      · next hdone =>
          cases hserve
          cases hread with
          | inl hposted =>
              rw [hposted.1] at hdone
              cases hdone
          | inr hbytes =>
              rcases hbytes with ⟨bytes, hread, hencodes⟩
              rw [hread] at hdone
              cases hdone
              exact ⟨.fetched _, rfl, hencodes, hheaps⟩
      · cases hserve
  | pushPublicHeap heap =>
      rcases hmay with ⟨descBuf, rfl, hdes, hid⟩
      rcases hcoupled with ⟨hencodes, hheaps⟩
      cases hserve
      refine ⟨.pushed heap, rfl, ?_, hid, hencodes.deserialize hdes⟩
      rw [hheaps]
      rfl
  | _ => exact hkeep hmay hserve

theorem RaceInv.step (h : RaceInv lib hint machineId s past) {a : RaceAct Regs Rdma}
    {s' : Race Regs Rdma bufSize} (hleaves : LeavesNamed lib hint s a)
    (hstep : s.step lib a = some (s', now)) : RaceInv lib hint machineId s' (past ++ now) := by
  cases a with
  | owner a =>
      rcases Option.map_eq_some_iff.mp hstep with ⟨⟨owner, now'⟩, howner, hpair⟩
      cases hpair
      exact h.owner hleaves (.of_step howner)
  | answer env output =>
      simp only [Race.step] at hstep
      split at hstep
      · next payload hsent =>
          split at hstep
          · next hlong =>
              split at hstep
              · next bytes n state now' hrun =>
                  cases hstep
                  exact h.answer hsent hlong hrun
              · cases hstep
          · cases hstep
      · cases hstep
  | read =>
      simp only [Race.step] at hstep
      split at hstep
      · next pa sz hposted =>
          cases hstep
          rw [List.append_nil]
          exact h.read hposted
      · cases hstep
  | pull env =>
      simp only [Race.step] at hstep
      split at hstep
      · next o k hrest =>
          rcases Option.map_eq_some_iff.mp hstep with ⟨⟨r, pull⟩, hserve, hpair⟩
          cases hpair
          rw [List.append_nil]
          refine ⟨h.owned, h.stored, h.fits, ?_⟩
          have hfollows := h.follows
          rw [hrest] at hfollows
          apply hfollows.answer
          intro g hmay hg
          rcases coupled_serve hserve hmay hg with ⟨g', hnext, hcoupled⟩
          exact ⟨g', hnext, hcoupled⟩
      · cases hstep

theorem raceInv_of_run {pool : Pool bufSize} {eagerFetch : Bool}
    {acts : List (RaceAct Regs Rdma)}
    (hmeets : RunMeets (Race.step lib) (LeavesNamed lib hint)
      (Race.init lib pool hint machineId eagerFetch) acts)
    (hrun : runFrom (Race.step lib) (Race.init lib pool hint machineId eagerFetch) acts =
      some (s, past)) : RaceInv lib hint machineId s past := by
  have hinit : RaceInv lib hint machineId
      (Race.init lib pool hint machineId eagerFetch : Race Regs Rdma bufSize) [] :=
    { owned := machineOwned_init pool
      stored := fun _ _ hb => by cases hb
      fits := fun _ _ hin => by cases hin
      follows := ⟨.fresh, syscallRmap_conforms eagerFetch, rfl, rfl, rfl⟩ }
  have hstep : forall (s : Race Regs Rdma bufSize) (past : List (Event Regs Rdma))
      (a : RaceAct Regs Rdma) (s' : Race Regs Rdma bufSize) (now : List (Event Regs Rdma)),
      RaceInv lib hint machineId s past -> LeavesNamed lib hint s a -> s.step lib a = some (s', now) ->
        RaceInv lib hint machineId s' (past ++ now) :=
    fun _ _ _ _ _ h hleaves hs => h.step hleaves hs
  exact runFrom_invariant hstep hinit hmeets hrun

end Steps

/-- In every run in which the queried machine leaves the named buffer alone, a
pull that returns 0 has pushed the heap that was registered under its hint. -/
theorem pull_gets_registered (lib : KernelLib Regs Rdma) (pool : Pool bufSize)
    (hint machineId : UInt64) (eagerFetch : Bool) {acts : List (RaceAct Regs Rdma)}
    {s : Race Regs Rdma bufSize} {past : List (Event Regs Rdma)}
    (hmeets : RunMeets (Race.step lib) (LeavesNamed lib hint)
      (Race.init lib pool hint machineId eagerFetch) acts)
    (hrun : runFrom (Race.step lib) (Race.init lib pool hint machineId eagerFetch) acts =
      some (s, past))
    (hreturned : s.pull.rest.outcome = some (.returned 0)) :
    exists heap self reg,
      s.pull.publicHeaps = [heap] ∧ heap.id = hint ∧
        Event.registered self hint reg ∈ past ∧
        (forall self' reg', Event.registered self' hint reg' ∈ past ->
          self' = self ∧ reg' = reg) ∧
        heap.descriptor = reg.heap.descriptor.toHeapDescriptor := by
  have hinv := raceInv_of_run hmeets hrun
  rcases hinv.follows with ⟨g, hconf, hcoupled⟩
  cases hrest : s.pull.rest with
  | call o k =>
      rw [hrest] at hreturned
      cases hreturned
  | panic msg =>
      rw [hrest] at hreturned
      cases hreturned
  | ret r =>
      rw [hrest] at hreturned hconf
      cases hreturned
      rcases hconf rfl with ⟨heap, rfl⟩
      rcases hcoupled with ⟨hheaps, hid, self, reg, hin, hdes⟩
      exact ⟨heap, self, reg, hheaps, hid, hin,
        fun self' reg' hin' =>
          hinv.owned.keys.registered_unique self self' hint reg reg' hin hin',
        hdes⟩

def pullSteps (n : Nat) : List (RaceAct UInt64 UInt64) :=
  List.replicate n (.pull (obliging (some []) []))

def quietActs : List (RaceAct UInt64 UInt64) :=
  registerActs.map .owner ++ pullSteps 5 ++
    [.answer (smallSurroundings none 0) (List.replicate 64 0)] ++
      pullSteps 5 ++ [.read] ++ pullSteps 5

/-- The handle of the heap is closed and another one registers a heap of its
own, in the same buffer. -/
def reuseActs : List (Act UInt64 UInt64) :=
  [.closeHandle 0 (smallSurroundings none 0), .openHandle, .command 1 (.register 65536)] ++
    List.replicate 6 (.resume 1 (smallSurroundings none 0))

def reusedActs : List (RaceAct UInt64 UInt64) :=
  registerActs.map .owner ++ pullSteps 5 ++
    [.answer (smallSurroundings none 0) (List.replicate 64 0)] ++ pullSteps 5 ++
      reuseActs.map .owner ++ [.read] ++ pullSteps 4

theorem fits_smallTask (rdmaMeta : UInt64) (heapStart : Nat) :
    FitsBuffer plainLib 128
      (ShadowHeap.new smallTask rdmaMeta { startVirtAddr := heapStart }).descriptor := by
  constructor
  · rw [shadowHeap_new_eq]
    by_cases hcovers : VMA.Covers
        { vmStart := 4096, vmEnd := 12288, vmFlags := 0, vmFile := 0 } heapStart
    · have hrun : heapRun heapStart smallTask.mm.vmas = smallTask.mm.vmas := if_pos hcovers
      rw [hrun]
      show 72 ≤ 128
      decide
    · have hrun : heapRun heapStart smallTask.mm.vmas = [] := if_neg hcovers
      rw [hrun]
      show 24 ≤ 128
      decide
  · decide

theorem runMeets_before {hint : UInt64} {acts : List (Act UInt64 UInt64)}
    {rest : List (RaceAct UInt64 UInt64)}
    (htask : forall self env, Act.resume self env ∈ acts -> env.task = smallTask)
    (hrest : forall s : Race UInt64 UInt64 128,
      RunMeets (Race.step plainLib) (LeavesNamed plainLib hint) s rest)
    {s : Race UInt64 UInt64 128} (hquery : s.pull.query = .idle) (hread : s.pull.read = .idle) :
    RunMeets (Race.step plainLib) (LeavesNamed plainLib hint) s (acts.map .owner ++ rest) := by
  induction acts generalizing s with
  | nil => exact hrest s
  | cons a acts ih =>
      constructor
      · intro self env req key heapStart rdmaMeta k ha _
        cases ha
        constructor
        · unfold Pull.named
          rw [hquery, hread]
          by_cases hended : s.pull.rest.outcome.isSome
          · rw [if_pos hended]
            exact fun h => by cases h
          · rw [if_neg hended]
            exact fun h => by cases h
        · intro _
          rw [htask self env List.mem_cons_self]
          exact fits_smallTask rdmaMeta heapStart
      · intro s' now hstep
        rcases Option.map_eq_some_iff.mp hstep with ⟨⟨owner, now'⟩, _, hpair⟩
        cases hpair
        exact ih (fun self env hin => htask self env (List.mem_cons_of_mem _ hin)) hquery hread

theorem pull_gets_registered_quiet :
    exists (s : Race UInt64 UInt64 128) (past : List (Event UInt64 UInt64)),
      RunMeets (Race.step plainLib) (LeavesNamed plainLib 1)
          (Race.init plainLib (Pool.zeroed 128) 1 0 false) quietActs ∧
        runFrom (Race.step plainLib) (Race.init plainLib (Pool.zeroed 128) 1 0 false)
            quietActs = some (s, past) ∧
          exists heap self reg, s.pull.publicHeaps = [heap] ∧
            Event.registered self 1 reg ∈ past ∧
              heap.descriptor = reg.heap.descriptor.toHeapDescriptor := by
  have hobserved :
      (runFrom (Race.step plainLib) (Race.init plainLib (Pool.zeroed 128) 1 0 false)
        quietActs).map (fun r => r.1.pull.rest.outcome) = some (some (.returned 0)) := by
    decide +kernel
  rcases Option.map_eq_some_iff.mp hobserved with ⟨⟨s, past⟩, hrun, hreturned⟩
  have hmeets : RunMeets (Race.step plainLib) (LeavesNamed plainLib 1)
      (Race.init plainLib (Pool.zeroed 128) 1 0 false) quietActs := by
    unfold quietActs
    simp only [List.append_assoc]
    refine runMeets_before ?_ (fun s => runMeets_of_forall ?_ s) rfl rfl
    · intro self env hin
      simp [registerActs] at hin
      rw [hin.2]
      rfl
    · intro a hin s self env req key heapStart rdmaMeta k ha
      rw [ha] at hin
      simp [pullSteps] at hin
  rcases pull_gets_registered plainLib (Pool.zeroed 128) 1 0 false hmeets hrun hreturned
    with ⟨heap, self, reg, hheaps, _, hin, _, hdes⟩
  exact ⟨s, past, hmeets, hrun, heap, self, reg, hheaps, hin, hdes⟩

def registeredSizes (key : UInt64) (past : List (Event UInt64 UInt64)) : List Nat :=
  past.filterMap fun
    | .registered _ key' reg =>
        if key' = key then some reg.heap.descriptor.vma.length else none
    | _ => none

theorem not_pull_gets_registered_reused :
    ¬ forall acts (s : Race UInt64 UInt64 128) past,
      runFrom (Race.step plainLib) (Race.init plainLib (Pool.zeroed 128) 1 0 false) acts =
          some (s, past) ->
        s.pull.rest.outcome = some (.returned 0) ->
          exists heap self reg, s.pull.publicHeaps = [heap] ∧
            Event.registered self 1 reg ∈ past ∧
              heap.descriptor = reg.heap.descriptor.toHeapDescriptor := by
  intro h
  have hobserved :
      (runFrom (Race.step plainLib) (Race.init plainLib (Pool.zeroed 128) 1 0 false)
        reusedActs).map (fun r => (r.1.pull.rest.outcome,
          r.1.pull.publicHeaps.map (fun heap => heap.descriptor.vma.length),
          registeredSizes 1 r.2)) = some (some (.returned 0), [0], [1]) := by
    decide +kernel
  rcases Option.map_eq_some_iff.mp hobserved with ⟨⟨s, past⟩, hrun, hfacts⟩
  have hlen : s.pull.publicHeaps.map (fun heap => heap.descriptor.vma.length) = [0] :=
    congrArg (fun r => r.2.1) hfacts
  have hsizes : registeredSizes 1 past = [1] := congrArg (fun r => r.2.2) hfacts
  rcases h _ s past hrun (congrArg Prod.fst hfacts) with ⟨heap, self, reg, hheaps, hin, hdes⟩
  have hmem : reg.heap.descriptor.vma.length ∈ registeredSizes 1 past :=
    List.mem_filterMap.mpr ⟨_, hin, if_pos rfl⟩
  rw [hsizes, List.mem_singleton] at hmem
  rw [hheaps, List.map_singleton, hdes] at hlen
  have hzero : reg.heap.descriptor.vma.length = 0 := List.head_eq_of_cons_eq hlen
  omega

end Kernel
end Dmerge
