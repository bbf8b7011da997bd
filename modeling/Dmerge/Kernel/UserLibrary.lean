import Dmerge.Kernel.Commands
import Dmerge.Kernel.RepeatedReads

/-!
# The user library

A process pushes its heap through `call_register`, sends the machine and the hint
that it is told to another process, and that one pulls through `call_pull`.  On the
way the hint is a `c_long` of the kernel, the result of the C function `ioctl`, an
`int`, a Python integer, an `unsigned int` and a field of a request.
-/

namespace Dmerge
namespace Kernel

open Foundation Memory Descriptors Producer Prog

variable {Regs Rdma Page : Type} {bufSize : Nat}

/-!
## From the kernel and back
-/

/-- `ioctl` of the C library: an error number becomes -1, and everything else an `int`. -/
def libcIoctl (ret : Int) : Int32 :=
  if -4095 ≤ ret ∧ ret ≤ -1 then -1 else Int32.ofInt ret

/-- `call_register`, when the kernel has returned. -/
def callRegister (ret : Int) : Int32 :=
  let ret := libcIoctl ret
  if ret = -1 then -1 else ret

/-- A Python integer as an `unsigned int`; one that is none raises an `OverflowError`. -/
def toUnsignedInt (v : Int) : Option UInt32 :=
  if 0 ≤ v ∧ v < 2 ^ 32 then some (UInt32.ofNat v.toNat) else none

/-- `pull_req_t`, with its three bytes of padding. -/
def pullReq (heapHint machineId : UInt32) (eagerFetch : Bool) (padding : Bytes) : Bytes :=
  toLE 4 heapHint.toNat ++ (toLE 4 machineId.toNat ++ (toLE 1 eagerFetch.toNat ++ padding))

/-- What `util.push` returns, beside the GID. -/
structure Pushed where
  macId : Int
  hint : Int
  deriving DecidableEq, Repr

/-- `util.push` on a machine, when ioctl-0 has returned. -/
def push (machine : UInt64) (ret : Int) : Pushed where
  macId := machine.toNat
  hint := (callRegister ret).toInt

/-- `util.eager_fetch` -/
def utilEagerFetch : Bool := false

/-- The request of `util.pull`, as the kernel reads it. -/
def pullRequest (pushed : Pushed) (padding : Bytes) : Option Request := do
  let hint ← toUnsignedInt pushed.hint
  let machineId ← toUnsignedInt pushed.macId
  return readPullReq (pullReq hint machineId utilEagerFetch padding)

/-- What is told of `util.pull`. -/
def Deployment.utilPull (s : Deployment Regs Rdma Page bufSize) (lib : KernelLib Regs Rdma)
    (located : Rdma -> UInt64) (p : Process) (env : CallEnv Regs Rdma) (pushed : Pushed)
    (padding : Bytes) : List (DeployObs Page) :=
  match pullRequest pushed padding with
  | none => []
  | some req => s.tells p req env (s.runCommand lib located p req env).1

/-!
## The request
-/

theorem field_first (w v : Nat) (rest : Bytes) (hv : v < 256 ^ w) :
    field (toLE w v ++ rest) 0 w = v := by
  unfold field
  rw [List.drop_zero, List.take_left' (length_toLE w v), fromLE_toLE_of_lt hv]

theorem field_skip (w v offset w' : Nat) (rest : Bytes) :
    field (toLE w v ++ rest) (w + offset) w' = field rest offset w' := by
  unfold field
  rw [← List.drop_drop, List.drop_left' (length_toLE w v)]

theorem readPullReq_pullReq (heapHint machineId : UInt32) (eagerFetch : Bool)
    (padding : Bytes) :
    readPullReq (pullReq heapHint machineId eagerFetch padding) =
      .pull heapHint machineId eagerFetch := by
  have hhint : field (pullReq heapHint machineId eagerFetch padding) 0 4 = heapHint.toNat :=
    field_first 4 _ _ heapHint.toNat_lt
  have hmachine : field (pullReq heapHint machineId eagerFetch padding) 4 4 =
      machineId.toNat :=
    (field_skip 4 _ 0 4 _).trans (field_first 4 _ _ machineId.toNat_lt)
  have heager : field (pullReq heapHint machineId eagerFetch padding) 8 1 =
      eagerFetch.toNat := by
    refine (field_skip 4 _ 4 1 _).trans ((field_skip 4 _ 0 1 _).trans (field_first 1 _ _ ?_))
    cases eagerFetch <;> decide
  unfold readPullReq
  rw [hhint, hmachine, heager, UInt32.ofNat_toNat, UInt32.ofNat_toNat]
  cases eagerFetch <;> rfl

/-!
## The integers
-/

theorem toUnsignedInt_natCast {n : Nat} (hn : n < 2 ^ 32) :
    toUnsignedInt n = some (UInt32.ofNat n) := by
  unfold toUnsignedInt
  rw [if_pos ⟨Int.natCast_nonneg n, by exact_mod_cast hn⟩, Int.toNat_natCast]

theorem toNat_of_toUnsignedInt {v : Int} {n : UInt32} (h : toUnsignedInt v = some n) :
    (n.toNat : Int) = v := by
  unfold toUnsignedInt at h
  split at h
  · next hv =>
      cases h
      have hlt : v.toNat < 2 ^ 32 := by
        rw [Int.toNat_lt hv.1]
        exact_mod_cast hv.2
      rw [UInt32.toNat_ofNat', Nat.mod_eq_of_lt hlt, Int.toNat_of_nonneg hv.1]
  · cases h

theorem callRegister_small {n : Nat} (hn : n < 2 ^ 31) : (callRegister n).toInt = n := by
  have hnonneg : (0 : Int) ≤ n := Int.natCast_nonneg n
  have hint : (Int32.ofInt n).toInt = n := by
    rw [Int32.toInt_ofInt]
    apply Int.bmod_eq_of_le
    · simp only [Int32.size]
      omega
    · simp only [Int32.size]
      omega
  have hlibc : libcIoctl n = Int32.ofInt n := by
    unfold libcIoctl
    rw [if_neg fun h => absurd (le_trans hnonneg h.2) (by decide)]
  have hne : Int32.ofInt n ≠ -1 := by
    intro h
    rw [h] at hint
    rw [← hint] at hnonneg
    exact absurd hnonneg (by decide)
  unfold callRegister
  rw [hlibc]
  simp only [if_neg hne]
  exact hint

theorem toInt_hint_small {key : UInt64} (hkey : key.toNat < 2 ^ 31) :
    key.toInt64.toInt = key.toNat := by
  have hsigned : key.toInt64.toInt = (key.toNat : Int).bmod (2 ^ 64) :=
    BitVec.toInt_eq_toNat_bmod _
  rw [hsigned]
  apply Int.bmod_eq_of_le
  · omega
  · omega

theorem callRegister_lt (ret : Int) : (callRegister ret).toInt < 2 ^ 31 :=
  Int32.toInt_lt _

theorem hint_carried_iff (key : UInt64) :
    (exists hint, toUnsignedInt (callRegister key.toInt64.toInt).toInt = some hint ∧
      hint.toUInt64 = key) <-> key.toNat < 2 ^ 31 := by
  constructor
  · intro h
    rcases h with ⟨hint, hcarried, rfl⟩
    have hlt := callRegister_lt hint.toUInt64.toInt64.toInt
    rw [← toNat_of_toUnsignedInt hcarried] at hlt
    rw [UInt32.toNat_toUInt64]
    exact_mod_cast hlt
  · intro hkey
    refine ⟨UInt32.ofNat key.toNat, ?_, ?_⟩
    · rw [toInt_hint_small hkey, callRegister_small hkey]
      exact toUnsignedInt_natCast (lt_trans hkey (by decide))
    · apply UInt64.toNat_inj.mp
      rw [UInt32.toNat_toUInt64, UInt32.toNat_ofNat',
        Nat.mod_eq_of_lt (lt_trans hkey (by decide))]

/-!
## A pull of what was pushed
-/

section Pulls

variable {lib : KernelLib Regs Rdma} {located : Rdma -> UInt64}
variable {s s' : Deployment Regs Rdma Page bufSize} {p : Process} {key : UInt64}

theorem pullRequest_push_iff (machine key : UInt64) (padding : Bytes) :
    (exists heapHint machineId,
      pullRequest (push machine key.toInt64.toInt) padding =
          some (.pull heapHint machineId utilEagerFetch) ∧
        machineId.toUInt64 = machine ∧ heapHint.toUInt64 = key) <->
      key.toNat < 2 ^ 31 ∧ machine.toNat < 2 ^ 32 := by
  unfold pullRequest push
  constructor
  · intro h
    rcases h with ⟨heapHint, machineId, hreq, rfl, hkey⟩
    rcases Option.bind_eq_some_iff.mp hreq with ⟨hint, hhint, hrest⟩
    rcases Option.bind_eq_some_iff.mp hrest with ⟨machineId', _, hread⟩
    rw [readPullReq_pullReq] at hread
    cases hread
    refine ⟨(hint_carried_iff key).mp ⟨heapHint, hhint, hkey⟩, ?_⟩
    rw [UInt32.toNat_toUInt64]
    exact machineId.toNat_lt
  · intro h
    rcases h with ⟨hkey, hmachine⟩
    rcases (hint_carried_iff key).mpr hkey with ⟨hint, hhint, hcarried⟩
    refine ⟨hint, UInt32.ofNat machine.toNat, ?_, ?_, hcarried⟩
    · simp only [hhint, toUnsignedInt_natCast hmachine, readPullReq_pullReq]
      rfl
    · apply UInt64.toNat_inj.mp
      rw [UInt32.toNat_toUInt64, UInt32.toNat_ofNat', Nat.mod_eq_of_lt hmachine]

theorem register_again (hhint : (s.machines p.1).hintOf p.2 = some key)
    (heapBase : UInt64) (env : CallEnv Regs Rdma) :
    (s.runCommand lib located p (.register heapBase) env).1 =
      .returned key.toInt64.toInt := by
  have hregister : exists out s' st,
      s.runCommand lib located p (.register heapBase) env = (out, (st, s.memory p)) ∧
        st.machines = Function.update s.machines p.1 s' ∧
          RegisterEnds lib (s.machines p.1) p.2 env heapBase.toNat out s' :=
    run_register_process s.machines heapBase (s.memory p)
  rcases hregister with ⟨out, s', st, hrun, _, hends⟩
  rw [hrun]
  cases hends with
  | recalled hhint' =>
      rw [hhint] at hhint'
      cases hhint'
      rfl
  | exhausted hnone =>
      rw [hhint] at hnone
      cases hnone
  | wasted hnone _ =>
      rw [hhint] at hnone
      cases hnone
  | registered hnone _ _ =>
      rw [hhint] at hnone
      cases hnone

theorem kept_init (located : Rdma -> UInt64) (pool : Pool bufSize)
    (frames : FrameAddr -> Page) :
    ((Deployment.init pool frames : Deployment Regs Rdma Page bufSize).shared
      located).names.Kept where
  published _ _ h := by cases h
  spent _ _ h := by cases h
  unique _ _ _ h _ := by cases h

theorem owned_published (hkept : (s.shared located).names.Kept)
    (hhint : (s.machines p.1).hintOf p.2 = some key) :
    ((s.shared located).names.published (p.1, key)).isSome := by
  apply hkept.published p
  unfold Deployment.shared sharedNames
  simp only [hhint, Option.map_some]

theorem utilPull_push_iff (hs : s.Sound lib located) (hsize : bufSize < 2 ^ 64)
    (hpublished : ((s.shared located).names.published (p.1, key)).isSome) (q : Process)
    {env : CallEnv Regs Rdma} (hfits : env.Fits lib)
    (hconn : Kernel.Connected lib env.caller.answer) (padding : Bytes) :
    s.utilPull lib located q env (push p.1 key.toInt64.toInt) padding =
        [.joined q (p.1, key)] <->
      key.toNat < 2 ^ 31 ∧ p.1.toNat < 2 ^ 32 := by
  rw [← pullRequest_push_iff p.1 key padding]
  unfold Deployment.utilPull
  constructor
  · intro h
    cases hreq : pullRequest (push p.1 key.toInt64.toInt) padding with
    | none =>
        rw [hreq] at h
        cases h
    | some req =>
        rcases Option.bind_eq_some_iff.mp hreq with ⟨heapHint, hhint, hrest⟩
        rcases Option.bind_eq_some_iff.mp hrest with ⟨machineId, hmachine, hread⟩
        rw [readPullReq_pullReq] at hread
        cases hread
        simp only [hreq, tells_pull] at h
        split at h
        · have hname := (SharedObs.joined.inj (List.cons.inj h).1).2
          exact ⟨heapHint, machineId, rfl, congrArg Prod.fst hname, congrArg Prod.snd hname⟩
        · cases h
  · intro h
    rcases h with ⟨heapHint, machineId, hreq, hmachine, hkey⟩
    have hreturns := (pull_returns_iff hs hsize (p := q) hfits hconn heapHint machineId
      utilEagerFetch).mpr (by rw [hmachine, hkey]; exact hpublished)
    simp only [hreq, tells_pull]
    rw [if_pos hreturns, hmachine, hkey]

end Pulls

end Kernel
end Dmerge
