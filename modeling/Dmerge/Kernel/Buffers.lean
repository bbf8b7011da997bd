import Dmerge.Kernel.RegistryRuns

/-!
# Registered buffers

In every run, the buffer of a registered bundle starts with the encoding of the
descriptor of its heap, if the buffer is long enough: the pool never hands out
the buffer of a bundle that is still registered.  The reply to a query names
this buffer and the length of the encoding.
-/

namespace Dmerge
namespace Kernel

open Foundation Memory Descriptors Producer

variable {Regs Rdma : Type} {bufSize : Nat}

def FitsBuffer (lib : KernelLib Regs Rdma) (bufSize : Nat)
    (d : ParentDescriptor Regs Rdma) : Prop :=
  d.serializationBufLen lib ≤ bufSize ∧ bufSize < 2 ^ 64

def Holds (lib : KernelLib Regs Rdma) (s : ModuleState Regs Rdma bufSize)
    (b : HeapBundler Regs Rdma) : Prop :=
  b.serializedBufLen = b.heap.descriptor.serializationBufLen lib ∧
    (b.heap.descriptor.serializationBufLen lib ≤ bufSize ->
      (s.pool.bytes b.serializedBuf).take b.serializedBufLen = b.heap.descriptor.encode lib)

def Stored (lib : KernelLib Regs Rdma) (s : ModuleState Regs Rdma bufSize) : Prop :=
  forall key b, s.bundle key = some b -> Holds lib s b

section Steps

variable {lib : KernelLib Regs Rdma} {s s' : ModuleState Regs Rdma bufSize}

theorem Stored.same (h : Stored lib s) (hpool : s'.pool = s.pool)
    (hbundle : forall key b, s'.bundle key = some b -> s.bundle key = some b) :
    Stored lib s' := by
  intro key b hb
  have hold := h key b (hbundle key b hb)
  unfold Holds
  rw [hpool]
  exact hold

theorem holds_register (s : ModuleState Regs Rdma bufSize) (key : UInt64)
    (reg : Registration Regs Rdma) : Holds lib (s.register lib key reg) (reg.bundler lib) := by
  refine ⟨rfl, fun hfits => ?_⟩
  have hbytes : (s.register lib key reg).pool.bytes reg.buf =
      (reg.heap.descriptor.serialize lib (s.pool.bytes reg.buf)).2 :=
    HeapBundler.new_same lib s.pool reg.heap reg.buf
  have hlong : ¬ (s.pool.bytes reg.buf).length < reg.heap.descriptor.serializationBufLen lib := by
    rw [s.pool.length_bytes]
    exact not_lt.mpr hfits
  show List.take _ ((s.register lib key reg).pool.bytes reg.buf) = _
  rw [hbytes]
  unfold ParentDescriptor.serialize
  rw [if_neg hlong]
  exact List.take_left

theorem Stored.register (h : Stored lib s) (key : UInt64) {reg : Registration Regs Rdma}
    (hfree : s.Free reg.buf) : Stored lib (s.register lib key reg) := by
  intro key' b hb
  rw [ModuleState.bundle_register] at hb
  by_cases hkey : key' = key
  · rw [if_pos hkey] at hb
    cases hb
    exact holds_register s key reg
  · rw [if_neg hkey] at hb
    have hold := h key' b hb
    have hbytes : (s.register lib key reg).pool.bytes b.serializedBuf =
        s.pool.bytes b.serializedBuf :=
      HeapBundler.new_other lib s.pool reg.heap (hfree.ne hb)
    unfold Holds
    rw [hbytes]
    exact hold

theorem Stored.serve (h : Stored lib s) (self : Nat) (env : Surroundings Regs Rdma)
    (o : KernelOp Regs Rdma) (hadmits : Admits s env o) :
    Stored lib (serve lib self env s o).2.1 := by
  cases o using KernelOp.byKind with
  | external o ho =>
      rw [serve_external lib self env s ho]
      exact h
  | allocOneId =>
      cases hid : s.idGen.allocOneId with
      | none =>
          rw [serve_allocOneId_none lib self env s hid]
          exact h
      | some next =>
          rw [serve_allocOneId_some lib self env s hid]
          exact h
  | addBundler key heapStart rdmaMeta => exact h.register key hadmits
  | unregister key =>
      refine h.same rfl ?_
      intro key' b hb
      simp only [Kernel.serve] at hb
      rw [ModuleState.bundle_unregister] at hb
      by_cases hkey : key' = key
      · rw [if_pos hkey] at hb
        cases hb
      · rwa [if_neg hkey] at hb
  | getPrivateHint => exact h
  | setPrivateHint hint => exact h
  | pushPublicHeap heap => exact h
  | queryDescriptorBuf key => exact h

theorem pool_dropHandler (lib : KernelLib Regs Rdma) (self : Nat)
    (env : Surroundings Regs Rdma) (s : ModuleState Regs Rdma bufSize) :
    (runAlone lib self env dropHandler s).2.1.pool = s.pool := by
  rw [runAlone_dropHandler]
  cases s.hintOf self with
  | none => rfl
  | some hint => rfl

theorem pool_of_step {m m' : Machine Regs Rdma bufSize} {a : Act Regs Rdma}
    {now : List (Event Regs Rdma)} (hstep : m.Step lib a m' now) :
    m'.state.pool = m.state.pool ∨
      exists self env req key heapStart rdmaMeta, exists k : Unit -> KProg Regs Rdma Int,
        a = .resume self env ∧
          m.running self = some (req, .call (.addBundler key heapStart rdmaMeta) k) ∧
            forall buf, buf ≠ env.buf ->
              m'.state.pool.bytes buf = m.state.pool.bytes buf := by
  cases hstep with
  | opened => exact Or.inl rfl
  | started => exact Or.inl rfl
  | finished => exact Or.inl rfl
  | closed self env hidle => exact Or.inl (pool_dropHandler lib self env m.state)
  | answered self env req o k hrunning hadmits =>
      cases o using KernelOp.byKind with
      | external o ho =>
          apply Or.inl
          show (serve lib self env m.state o).2.1.pool = m.state.pool
          rw [serve_external lib self env m.state ho]
      | allocOneId =>
          apply Or.inl
          show (serve lib self env m.state .allocOneId).2.1.pool = m.state.pool
          cases hid : m.state.idGen.allocOneId with
          | none => rw [serve_allocOneId_none lib self env m.state hid]
          | some next => rw [serve_allocOneId_some lib self env m.state hid]
      | addBundler key heapStart rdmaMeta =>
          apply Or.inr
          refine ⟨self, env, req, key, heapStart, rdmaMeta, k, rfl, hrunning, ?_⟩
          intro buf hbuf
          exact HeapBundler.new_other lib m.state.pool _ hbuf
      | getPrivateHint => exact Or.inl rfl
      | setPrivateHint hint => exact Or.inl rfl
      | pushPublicHeap heap => exact Or.inl rfl
      | queryDescriptorBuf key => exact Or.inl rfl
      | unregister key => exact Or.inl rfl

theorem Stored.step {m m' : Machine Regs Rdma bufSize} {a : Act Regs Rdma}
    {now : List (Event Regs Rdma)} (h : Stored lib m.state) (hstep : m.Step lib a m' now) :
    Stored lib m'.state := by
  cases hstep with
  | opened => exact h
  | started => exact h
  | finished => exact h
  | answered self env req o k hrunning hadmits => exact h.serve self env o hadmits
  | closed self env hidle =>
      apply h.same (pool_dropHandler lib self env m.state)
      intro key b hb
      have hb : (runAlone lib self env dropHandler m.state).2.1.bundle key = some b := hb
      rw [bundle_dropHandler] at hb
      by_cases hhint : m.state.hintOf self = some key
      · rw [if_pos hhint] at hb
        cases hb
      · rwa [if_neg hhint] at hb

theorem stored_of_run {m : Machine Regs Rdma bufSize} {pool : Pool bufSize}
    {acts : List (Act Regs Rdma)} {past : List (Event Regs Rdma)}
    (hrun : runFrom (Machine.step lib) (Machine.init pool) acts = some (m, past)) :
    Stored lib m.state := by
  have hinit : Stored lib (Machine.init pool : Machine Regs Rdma bufSize).state := by
    intro key b hb
    cases hb
  exact runFrom_preserves (fun _ _ _ _ h hs => Stored.step h (.of_step hs)) hinit hrun

end Steps

/-!
## Queries
-/

theorem run_handleQuery (lib : KernelLib Regs Rdma) (self : Nat)
    (env : Surroundings Regs Rdma) (s : ModuleState Regs Rdma bufSize)
    (input output : Bytes) :
    runAlone lib self env (handleQuery lib input output) s =
      match s.service.queryDescriptorBuf ((lib.usize.decode input).getD 0) with
      | none => (.returned (output, 0), s, [])
      | some buf =>
          let reply : HeapDescriptorQueryReply :=
            { pa := buf.1, sz := UInt64.ofNat buf.2, ready := true }
          (.returned (writeHead (lib.queryReply.encode reply) output,
            lib.queryReply.bufLen reply), s, []) := by
  unfold runAlone handleQuery
  simp only [invoke_bind, Prog.run_call, serveLogged, serve]
  cases s.service.queryDescriptorBuf ((lib.usize.decode input).getD 0) with
  | none => rfl
  | some buf => rfl

/-- A query of the key is answered, and the answer names bytes that are the
encoding of the descriptor. -/
def Serves (lib : KernelLib Regs Rdma) (s : ModuleState Regs Rdma bufSize) (key : UInt64)
    (d : ParentDescriptor Regs Rdma) : Prop :=
  forall self env output, exists reply : HeapDescriptorQueryReply,
    (runAlone lib self env (handleQuery lib (lib.usize.encode key) output) s).1 =
        .returned (writeHead (lib.queryReply.encode reply) output,
          lib.queryReply.bufLen reply) ∧
      reply.ready = true ∧ reply.sz.toNat = d.serializationBufLen lib ∧
      (s.pool.bytes reply.pa).take (d.serializationBufLen lib) = d.encode lib

theorem answer_of_bundle {lib : KernelLib Regs Rdma} {s : ModuleState Regs Rdma bufSize}
    {key : UInt64} {b : HeapBundler Regs Rdma} (hb : s.bundle key = some b) (handle : Nat)
    (env : Surroundings Regs Rdma) (output : Bytes) :
    (runAlone lib handle env (handleQuery lib (lib.usize.encode key) output) s).1 =
      .returned
        (writeHead
          (lib.queryReply.encode
            { pa := b.serializedBuf, sz := UInt64.ofNat b.serializedBufLen, ready := true })
          output,
          lib.queryReply.bufLen
            { pa := b.serializedBuf, sz := UInt64.ofNat b.serializedBufLen, ready := true }) := by
  have hlookup : s.service.registeredHeap.lookup key = some b := hb
  have hdecode : lib.usize.decode (lib.usize.encode key) = some key :=
    Codec.decode_encode_nil lib.usize.toCodec key
  rw [run_handleQuery, hdecode, Option.getD_some]
  unfold ShadowHeapService.queryDescriptorBuf
  rw [hlookup]
  rfl

theorem reply_inj {lib : KernelLib Regs Rdma} {reply reply' : HeapDescriptorQueryReply}
    {output : Bytes} (hroom : output.length = lib.queryReply.size)
    (h : writeHead (lib.queryReply.encode reply) output =
      writeHead (lib.queryReply.encode reply') output) : reply = reply' := by
  have hdecode : forall r : HeapDescriptorQueryReply,
      lib.queryReply.decode (writeHead (lib.queryReply.encode r) output) = some r := by
    intro r
    have hlong : ¬ output.length < (lib.queryReply.encode r).length := by
      rw [lib.queryReply.length_encode, lib.queryReply.bufLen_eq, hroom]
      exact lt_irrefl _
    unfold writeHead
    rw [if_neg hlong, lib.queryReply.decode_encode]
  have hsome : some reply = some reply' := by
    rw [← hdecode reply, ← hdecode reply', h]
  exact Option.some.inj hsome

theorem Stored.serves_iff {lib : KernelLib Regs Rdma} {s : ModuleState Regs Rdma bufSize}
    (h : Stored lib s) {key : UInt64} {b : HeapBundler Regs Rdma}
    (hb : s.bundle key = some b) (env : Surroundings Regs Rdma) :
    Serves lib s key b.heap.descriptor <->
      b.heap.descriptor.serializationBufLen lib ≤ bufSize ∧
        b.heap.descriptor.serializationBufLen lib < 2 ^ 64 := by
  rcases h key b hb with ⟨hlen, hbytes⟩
  constructor
  · intro hserves
    rcases hserves 0 env (List.replicate lib.queryReply.size 0) with ⟨reply, hrun, _, hsz, hread⟩
    rw [answer_of_bundle hb] at hrun
    have hreply := reply_inj (List.length_replicate ..)
      (congrArg Prod.fst (Outcome.returned.inj hrun))
    constructor
    · have hcount := congrArg List.length hread
      rw [List.length_take, s.pool.length_bytes] at hcount
      have hencode : (b.heap.descriptor.encode lib).length =
          b.heap.descriptor.serializationBufLen lib := rfl
      omega
    · rw [← hsz]
      exact reply.sz.toNat_lt
  · rintro ⟨hfits, hword⟩ handle env output
    refine ⟨_, answer_of_bundle hb handle env output, rfl, ?_, ?_⟩
    · rw [hlen]
      exact UInt64.toNat_ofNat_of_lt' hword
    · rw [← hlen]
      exact hbytes hfits

theorem Serves.length_eq {lib : KernelLib Regs Rdma} {s : ModuleState Regs Rdma bufSize}
    {key : UInt64} {d d' : ParentDescriptor Regs Rdma} (h : Serves lib s key d)
    (h' : Serves lib s key d') (env : Surroundings Regs Rdma) :
    d.serializationBufLen lib = d'.serializationBufLen lib := by
  rcases h 0 env (List.replicate lib.queryReply.size 0) with ⟨reply, hrun, _, hsz, _⟩
  rcases h' 0 env (List.replicate lib.queryReply.size 0) with ⟨reply', hrun', _, hsz', _⟩
  rw [hrun] at hrun'
  have hreply := reply_inj (List.length_replicate ..)
    (congrArg Prod.fst (Outcome.returned.inj hrun'))
  rw [← hsz, ← hsz', hreply]

/-!
## Readable registrations
-/

/-- The registry names a buffer and a length for the key: the length is not beyond the
buffer, and these bytes are the encoding of the descriptor of the heap. -/
def Readable (lib : KernelLib Regs Rdma) (s : ModuleState Regs Rdma bufSize)
    (key : UInt64) : Prop :=
  exists buf len d,
    s.service.queryDescriptorBuf key = some (buf, len) ∧
      s.service.queryDescriptor key = some d ∧
      len ≤ (s.pool.bytes buf).length ∧ (s.pool.bytes buf).take len = d.encode lib

/-- The descriptor of a heap is not longer than a buffer of the pool. -/
def FitsPool (lib : KernelLib Regs Rdma) (bufSize : Nat) (heap : ShadowHeap Regs Rdma) : Prop :=
  heap.descriptor.serializationBufLen lib ≤ bufSize

/-- The heap that a step registers fits the pool. -/
def RegistersFitting (lib : KernelLib Regs Rdma) (m : Machine Regs Rdma bufSize) :
    Act Regs Rdma -> Prop
  | .resume self env =>
      match m.running self with
      | some (_, .call (.addBundler _ heapStart rdmaMeta) _) =>
          FitsPool lib bufSize
            (ShadowHeap.new env.task rdmaMeta { startVirtAddr := heapStart })
      | _ => True
  | _ => True

section Readable

variable {lib : KernelLib Regs Rdma} {s : ModuleState Regs Rdma bufSize}
variable {m m' : Machine Regs Rdma bufSize} {past now : List (Event Regs Rdma)}

theorem Stored.readable_iff (h : Stored lib s) {key : UInt64} {b : HeapBundler Regs Rdma}
    (hb : s.bundle key = some b) : Readable lib s key <-> FitsPool lib bufSize b.heap := by
  have hlookup : s.service.registeredHeap.lookup key = some b := hb
  have hbuf : s.service.queryDescriptorBuf key =
      some (b.serializedBuf, b.serializedBufLen) := by
    unfold ShadowHeapService.queryDescriptorBuf
    rw [hlookup]
    rfl
  have hdescriptor : s.service.queryDescriptor key = some b.heap.descriptor := by
    unfold ShadowHeapService.queryDescriptor
    rw [hlookup]
    rfl
  rcases h key b hb with ⟨hlen, hbytes⟩
  unfold FitsPool
  constructor
  · intro hreadable
    rcases hreadable with ⟨buf, len, d, hquery, _, hwithin, _⟩
    rw [hbuf] at hquery
    cases hquery
    rwa [s.pool.length_bytes, hlen] at hwithin
  · intro hfits
    refine ⟨b.serializedBuf, b.serializedBufLen, b.heap.descriptor, hbuf, hdescriptor, ?_,
      hbytes hfits⟩
    rw [s.pool.length_bytes, hlen]
    exact hfits

def AllFitted (lib : KernelLib Regs Rdma) (bufSize : Nat) (past : List (Event Regs Rdma)) :
    Prop :=
  forall self key reg, Event.registered self key reg ∈ past -> FitsPool lib bufSize reg.heap

theorem AllFitted.step (h : AllFitted lib bufSize past) {a : Act Regs Rdma}
    (hfits : RegistersFitting lib m a) (hstep : m.Step lib a m' now) :
    AllFitted lib bufSize (past ++ now) := by
  intro self key reg hin
  cases List.mem_append.mp hin with
  | inl hpast => exact h self key reg hpast
  | inr hnow =>
      rcases registered_of_step hstep hnow
        with ⟨env, req, heapStart, rdmaMeta, k, rfl, hrunning, rfl⟩
      simp only [RegistersFitting, hrunning] at hfits
      exact hfits

theorem allFitted_of_run {pool : Pool bufSize} {acts : List (Act Regs Rdma)}
    (hmeets : RunMeets (Machine.step lib) (RegistersFitting lib) (Machine.init pool) acts)
    (hrun : runFrom (Machine.step lib) (Machine.init pool) acts = some (m, past)) :
    AllFitted lib bufSize past := by
  have hinit : AllFitted lib bufSize ([] : List (Event Regs Rdma)) := by
    intro self key reg hin
    cases hin
  have hstep : forall (m : Machine Regs Rdma bufSize) (past : List (Event Regs Rdma))
      (a : Act Regs Rdma) (m' : Machine Regs Rdma bufSize) (now : List (Event Regs Rdma)),
      AllFitted lib bufSize past -> RegistersFitting lib m a ->
        Machine.step lib m a = some (m', now) -> AllFitted lib bufSize (past ++ now) :=
    fun _ _ _ _ _ h hfits hs => h.step hfits (.of_step hs)
  exact runFrom_invariant hstep hinit hmeets hrun

end Readable

/-- In every run a registered bundle is readable exactly when its descriptor is not
longer than a buffer of the pool, so all of them are in a run that registers no
longer one. -/
theorem registered_readable_iff (lib : KernelLib Regs Rdma) (pool : Pool bufSize)
    {acts : List (Act Regs Rdma)} {m : Machine Regs Rdma bufSize}
    {past : List (Event Regs Rdma)}
    (hrun : runFrom (Machine.step lib) (Machine.init pool) acts = some (m, past)) :
    (forall key b, m.state.bundle key = some b ->
      (Readable lib m.state key <-> FitsPool lib bufSize b.heap)) ∧
      (RunMeets (Machine.step lib) (RegistersFitting lib) (Machine.init pool) acts ->
        forall key b, m.state.bundle key = some b -> Readable lib m.state key) := by
  have hstored := stored_of_run hrun
  constructor
  · intro key b hb
    exact hstored.readable_iff hb
  · intro hmeets key b hb
    apply (hstored.readable_iff hb).mpr
    have howned := machineOwned_of_any_run hrun
    rcases howned.keys.bundle_registered key b hb with ⟨self, reg, hin, rfl⟩
    exact allFitted_of_run hmeets hrun self key reg hin

instance (m : Machine UInt64 UInt64 bufSize) (a : Act UInt64 UInt64) :
    Decidable (RegistersFitting plainLib m a) := by
  unfold RegistersFitting FitsPool
  split
  · split <;> infer_instance
  · infer_instance

theorem registered_readable_iff_register :
    exists (m : Machine UInt64 UInt64 128) (past : List (Event UInt64 UInt64)),
      runFrom (Machine.step plainLib) (Machine.init (Pool.zeroed 128)) registerActs =
          some (m, past) ∧
        (m.state.bundle 1).isSome ∧
        forall key b, m.state.bundle key = some b -> Readable plainLib m.state key := by
  have hobserved :
      (runFrom (Machine.step plainLib) (Machine.init (Pool.zeroed 128)) registerActs).map
        (fun r => (r.1.state.bundle 1).isSome) = some true := by
    decide +kernel
  have hmeets : RunMeets (Machine.step plainLib) (RegistersFitting plainLib)
      (Machine.init (Pool.zeroed 128)) registerActs := by
    decide +kernel
  rcases Option.map_eq_some_iff.mp hobserved with ⟨⟨m, past⟩, hrun, hbundle⟩
  exact ⟨m, past, hrun, hbundle,
    (registered_readable_iff plainLib (Pool.zeroed 128) hrun).2 hmeets⟩

/-- The descriptor of the small process does not fit a buffer of 16 bytes. -/
theorem not_registered_readable_short :
    ¬ forall acts (m : Machine UInt64 UInt64 16) (past : List (Event UInt64 UInt64)),
      runFrom (Machine.step plainLib) (Machine.init (Pool.zeroed 16)) acts = some (m, past) ->
        forall key b, m.state.bundle key = some b -> Readable plainLib m.state key := by
  intro h
  have hobserved :
      (runFrom (Machine.step plainLib) (Machine.init (Pool.zeroed 16)) registerActs).map
        (fun r => (r.1.state.bundle 1).map HeapBundler.serializedBufLen) =
          some (some 72) := by
    decide +kernel
  rcases Option.map_eq_some_iff.mp hobserved with ⟨⟨m, past⟩, hrun, hlen⟩
  rcases Option.map_eq_some_iff.mp hlen with ⟨b, hb, hlen⟩
  rcases h registerActs m past hrun 1 b hb with ⟨buf, len, d, hquery, _, hwithin, _⟩
  have hlookup : m.state.service.registeredHeap.lookup 1 = some b := hb
  unfold ShadowHeapService.queryDescriptorBuf at hquery
  rw [hlookup] at hquery
  cases hquery
  rw [m.state.pool.length_bytes, hlen] at hwithin
  exact absurd hwithin (by decide)

end Kernel
end Dmerge
