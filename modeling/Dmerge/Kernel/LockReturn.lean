import Dmerge.Kernel.Aborts

/-!
# The lock of a CPU is given back

An execution takes the lock of one CPU at most, and gives it back at each of its
exits.  What is left out are the panics: one that comes while the lock is held
leaves the entry of that CPU taken for good.
-/

namespace Dmerge
namespace Kernel

open Foundation Memory Descriptors Producer Prog

variable {Regs Rdma : Type}

inductive LockEvent where
  | locked (cpu : CpuId)
  | unlocked (cpu : CpuId)
  deriving DecidableEq, Repr

def lockEvent : KernelOp Regs Rdma -> Option LockEvent
  | .lock cpu => some (.locked cpu)
  | .unlock cpu => some (.unlocked cpu)
  | _ => none

/-- What an execution does to `global_locks`. -/
def lockEvents (trace : List (Exchange (kernelSig Regs Rdma))) : List LockEvent :=
  trace.filterMap fun e => lockEvent e.op

/-- An execution takes no lock, or takes one and gives it back once. -/
def GivesBack (trace : List (Exchange (kernelSig Regs Rdma))) : Prop :=
  lockEvents trace = [] ∨ exists cpu, lockEvents trace = [.locked cpu, .unlocked cpu]

/-- The answers that abort while the lock is held.  The pools are used without it, and the
lock is looked up by the CPU before it is taken. -/
def abortsLocked (lib : KernelLib Regs Rdma) (infoTaken : Bool) :
    (o : KernelOp Regs Rdma) -> o.Res -> Bool
  | .getCallingCpuId, _ => false
  | .allocOneId, _ => false
  | .newFromDcTargetPool, _ => false
  | o, r => aborts lib infoTaken o r

def NoLockedAbort (lib : KernelLib Regs Rdma) :
    Bool -> List (Exchange (kernelSig Regs Rdma)) -> Prop
  | _, [] => True
  | infoTaken, e :: rest =>
      abortsLocked lib infoTaken e.op e.res = false ∧
        NoLockedAbort lib (infoTaken || takesInfo e.op e.res) rest

instance NoLockedAbort.decidable (lib : KernelLib Regs Rdma) :
    forall infoTaken trace, Decidable (NoLockedAbort lib infoTaken trace)
  | _, [] => isTrue True.intro
  | infoTaken, e :: rest =>
      have : Decidable (NoLockedAbort lib (infoTaken || takesInfo e.op e.res) rest) :=
        NoLockedAbort.decidable lib _ rest
      inferInstanceAs (Decidable (_ ∧ _))

/-!
## What the monitor tells about the lock
-/

def LockPhase.events : LockPhase -> List LockEvent
  | .free => []
  | .held cpu => [.locked cpu]
  | .returned cpu => [.locked cpu, .unlocked cpu]

section Phases

variable {lib : KernelLib Regs Rdma} {g : CallState}

theorem events_after (o : KernelOp Regs Rdma) (r : o.Res) (hmay : g.may o) :
    (CallState.after lib g o r).lock.events = g.lock.events ++ (lockEvent o).toList := by
  have hother : lockEvent o = none -> (CallState.after lib g o r).lock = g.lock := by
    intro hnone
    unfold CallState.after
    split
    · rfl
    · cases o with
      | lock cpu => cases hnone
      | unlock cpu => cases hnone
      | accessInfoNew machineInfo => cases r <;> rfl
      | _ => rfl
  cases o with
  | lock cpu =>
      have hfree : g.lock = .free := hmay.2.1
      rw [hfree]
      rfl
  | unlock cpu =>
      have hheld : g.lock = .held cpu := hmay.2.1
      rw [hheld]
      rfl
  | _ => rw [hother rfl]; exact (List.append_nil _).symm

theorem events_follow {trace : List (Exchange (kernelSig Regs Rdma))}
    (hallows : (callMonitor lib).Allows g trace) :
    (CallState.lock ((callMonitor lib).follow g trace)).events =
      g.lock.events ++ lockEvents trace := by
  induction trace generalizing g with
  | nil => exact (List.append_nil _).symm
  | cons e rest ih =>
      rcases hallows with ⟨hmay, hrest⟩
      have hnext : (CallState.lock ((callMonitor lib).follow g (e :: rest))).events =
          (CallState.after lib g e.op e.res).lock.events ++ lockEvents rest := ih hrest
      rw [hnext, events_after e.op e.res hmay, List.append_assoc]
      congr 1
      unfold lockEvents
      rw [List.filterMap_cons]
      cases lockEvent e.op with
      | none => rfl
      | some event => rfl

theorem givesBack_iff {trace : List (Exchange (kernelSig Regs Rdma))}
    (hallows : (callMonitor lib).Allows CallState.start trace) :
    GivesBack trace <->
      ¬ CallState.Holding ((callMonitor lib).follow CallState.start trace) := by
  have hevents := events_follow hallows
  rw [show CallState.start.lock.events = [] from rfl, List.nil_append] at hevents
  unfold GivesBack CallState.Holding
  rw [← hevents]
  cases CallState.lock ((callMonitor lib).follow CallState.start trace) with
  | free => simp [LockPhase.events]
  | held cpu => simp [LockPhase.events]
  | returned cpu => simp [LockPhase.events]

theorem abortsLocked_iff {o : KernelOp Regs Rdma} {r : o.Res} (hmay : g.may o)
    (habr : aborts lib g.infoTaken o r = true) :
    abortsLocked lib g.infoTaken o r = true <-> g.Holding := by
  have hfree : g.lock = .free -> ¬ g.Holding := by
    intro hfree h
    rcases h with ⟨cpu, hheld⟩
    rw [hfree] at hheld
    cases hheld
  cases o with
  | getCallingCpuId => exact ⟨fun h => (by cases h), fun h => absurd h (hfree hmay.2)⟩
  | allocOneId => exact ⟨fun h => (by cases h), fun h => absurd h (hfree hmay.2)⟩
  | newFromDcTargetPool => exact ⟨fun h => (by cases h), fun h => absurd h (hfree hmay.2)⟩
  | getGlobalCaller cpu => exact ⟨fun _ => hmay.2, fun _ => habr⟩
  | registerRecvBuf => exact ⟨fun _ => hmay.2, fun _ => habr⟩
  | getSs session => exact ⟨fun _ => hmay.2, fun _ => habr⟩
  | getDcQpKey => exact ⟨fun _ => hmay.2, fun _ => habr⟩
  | blockOnRead timeoutUsec => exact ⟨fun _ => hmay.2, fun _ => habr⟩
  | accessInfoNew machineInfo => exact ⟨fun _ => hmay.2, fun _ => habr⟩
  | setMixedMap m => exact ⟨fun _ => hmay.2, fun _ => habr⟩
  | _ => cases habr

theorem abortsLocked_of_aborts {o : KernelOp Regs Rdma} {r : o.Res} {infoTaken : Bool}
    (h : aborts lib infoTaken o r = false) : abortsLocked lib infoTaken o r = false := by
  unfold abortsLocked
  split
  · rfl
  · rfl
  · rfl
  · exact h

theorem follow_trailing {trace : List (Exchange (kernelSig Regs Rdma))}
    (hallows : (callMonitor lib).Allows g trace) (haborted : g.aborted = true)
    (infoTaken : Bool) :
    (callMonitor lib).follow g trace = g ∧ NoLockedAbort lib infoTaken trace := by
  induction trace generalizing infoTaken with
  | nil => exact ⟨rfl, True.intro⟩
  | cons e rest ih =>
      rcases hallows with ⟨⟨hclean | htrailing, _⟩, hrest⟩
      · rw [hclean] at haborted
        cases haborted
      · have hsame : (callMonitor lib).after g e.op e.res = g := after_trailing htrailing e.res
        rw [hsame] at hrest
        rw [Monitor.follow_cons, hsame]
        rcases ih hrest (infoTaken || takesInfo e.op e.res) with ⟨hfollow, hno⟩
        refine ⟨hfollow, ?_, hno⟩
        rcases e with ⟨o, r⟩
        cases o <;> first | rfl | exact htrailing.elim

theorem aborted_holding_iff {trace : List (Exchange (kernelSig Regs Rdma))}
    (hallows : (callMonitor lib).Allows g trace) (hclean : g.aborted = false) :
    (CallState.aborted ((callMonitor lib).follow g trace) = true ∧
      CallState.Holding ((callMonitor lib).follow g trace)) <->
      ¬ NoLockedAbort lib g.infoTaken trace := by
  induction trace generalizing g with
  | nil =>
      constructor
      · intro h
        rw [show CallState.aborted g = true from h.1] at hclean
        cases hclean
      · intro h
        exact absurd True.intro h
  | cons e rest ih =>
      have hmay : g.may e.op := hallows.1
      have hrest : (callMonitor lib).Allows (CallState.after lib g e.op e.res) rest := hallows.2
      show CallState.aborted
          ((callMonitor lib).follow (CallState.after lib g e.op e.res) rest) = true ∧
        CallState.Holding
          ((callMonitor lib).follow (CallState.after lib g e.op e.res) rest) <-> _
      unfold CallState.after at hrest ⊢
      cases habr : aborts lib g.infoTaken e.op e.res with
      | true =>
          rw [habr, if_pos rfl] at hrest
          rw [if_pos rfl]
          have hlocked := abortsLocked_iff hmay habr
          rcases follow_trailing hrest rfl (g.infoTaken || takesInfo e.op e.res) with
            ⟨hfollow, hno⟩
          rw [hfollow]
          constructor
          · intro h hno'
            have hfalse := hno'.1
            rw [hlocked.mpr h.2] at hfalse
            cases hfalse
          · intro h
            refine ⟨rfl, hlocked.mp ?_⟩
            by_contra hnot
            exact h ⟨Bool.eq_false_of_not_eq_true hnot, hno⟩
      | false =>
          rw [habr, if_neg (by decide)] at hrest
          rw [if_neg (by decide), ih hrest (by rw [CallState.aborted_proceed, hclean]),
            CallState.infoTaken_proceed]
          exact not_congr ⟨fun h => ⟨abortsLocked_of_aborts habr, h⟩, fun h => h.2⟩

end Phases

/-!
## Executions, one after the other
-/

structure Execution (lib : KernelLib Regs Rdma) where
  entry : Entry
  trace : List (Exchange (kernelSig Regs Rdma))
  out : Outcome Returned
  executes : Executes (entry.code lib) trace out

theorem Execution.givesBack_iff {lib : KernelLib Regs Rdma} (e : Execution lib) :
    GivesBack e.trace <-> NoLockedAbort lib false e.trace := by
  rcases e with ⟨entry, trace, out, hexec⟩
  show GivesBack trace <-> NoLockedAbort lib false trace
  by_cases hadmissible : entry.Admissible lib
  · rcases Conforms.executes (Entry.code_tracked hadmissible) hexec with ⟨hallows, hends⟩
    have hheld := aborted_holding_iff hallows rfl
    rw [Kernel.givesBack_iff hallows]
    constructor
    · intro hnot
      by_contra hno
      exact hnot (hheld.mpr hno).2
    · intro hno hholding
      cases out with
      | returned r => exact hends.2 hholding
      | panicked msg => exact hheld.mp ⟨hends, hholding⟩ hno
  · rw [Entry.code_inadmissible hadmissible] at hexec
    cases hexec with
    | panic msg => exact ⟨fun _ => True.intro, fun _ => Or.inl rfl⟩

/-- Which entries of `global_locks` are taken. -/
def LockEvent.apply (taken : CpuId -> Bool) : LockEvent -> CpuId -> Bool
  | .locked cpu => Function.update taken cpu true
  | .unlocked cpu => Function.update taken cpu false

def takenAfter {lib : KernelLib Regs Rdma} (es : List (Execution lib)) : CpuId -> Bool :=
  (es.flatMap fun e => lockEvents e.trace).foldl LockEvent.apply fun _ => false

theorem GivesBack.apply {trace : List (Exchange (kernelSig Regs Rdma))} (h : GivesBack trace) :
    (lockEvents trace).foldl LockEvent.apply (fun _ => false) = fun _ => false := by
  cases h with
  | inl hnone =>
      rw [hnone]
      rfl
  | inr hcpu =>
      rcases hcpu with ⟨cpu, hevents⟩
      rw [hevents]
      show Function.update (Function.update (fun _ => false) cpu true) cpu false = fun _ => false
      rw [Function.update_idem]
      exact Function.update_eq_self cpu _

theorem takenAfter_of_givesBack {lib : KernelLib Regs Rdma} {es : List (Execution lib)}
    (h : forall e, e ∈ es -> GivesBack e.trace) : takenAfter es = fun _ => false := by
  unfold takenAfter
  induction es with
  | nil => rfl
  | cons e rest ih =>
      rw [List.flatMap_cons, List.foldl_append, (h e List.mem_cons_self).apply]
      exact ih fun e' he' => h e' (List.mem_cons_of_mem e he')

/-- In a sequence of executions on any CPUs, each one gives back the lock that it took
exactly when none of them got an answer that aborts while it held it; then no entry
of `global_locks` is taken between two of them. -/
theorem locks_given_back_iff (lib : KernelLib Regs Rdma) (es : List (Execution lib)) :
    ((forall e, e ∈ es -> GivesBack e.trace) <->
      forall e, e ∈ es -> NoLockedAbort lib false e.trace) ∧
      ((forall e, e ∈ es -> NoLockedAbort lib false e.trace) ->
        forall n cpu, takenAfter (es.take n) cpu = false) := by
  constructor
  · constructor
    · intro h e he
      exact e.givesBack_iff.mp (h e he)
    · intro h e he
      exact e.givesBack_iff.mpr (h e he)
  · intro h n cpu
    have hback : forall e, e ∈ es.take n -> GivesBack e.trace := by
      intro e he
      exact e.givesBack_iff.mpr (h e (List.mem_of_mem_take he))
    rw [takenAfter_of_givesBack hback]

def Execution.of (entry : Entry) (answer : Answers UInt64 UInt64) : Execution plainLib where
  entry := entry
  trace := (execution entry answer).1
  out := (execution entry answer).2
  executes := executes_execution entry answer

def readyReply : Bytes := plainLib.queryReply.encode { pa := 4096, sz := 8, ready := true }

def failedPulls : List (Execution plainLib) :=
  [Execution.of (.ioctrl 1 4096 pullUser) (obliging none []),
    Execution.of (.ioctrl 1 4096 pullUser) (obliging (some readyReply) [])]

theorem locks_given_back_iff_failed :
    (failedPulls.map fun e => lockEvents e.trace) =
        [[.locked 0, .unlocked 0], [.locked 0, .unlocked 0]] ∧
      forall n cpu, takenAfter (failedPulls.take n) cpu = false := by
  constructor
  · decide +kernel
  · apply (locks_given_back_iff plainLib failedPulls).2
    intro e he
    cases List.mem_cons.mp he with
    | inl hfirst =>
        rw [hfirst]
        decide +kernel
    | inr hsecond =>
        rw [List.mem_singleton.mp hsecond]
        decide +kernel

def readElapsed : Answers UInt64 UInt64
  | .blockOnRead _ => .elapsed
  | o => obliging (some readyReply) [] o

theorem not_locks_given_back_elapsed :
    ¬ forall (entry : Entry) (answer : Answers UInt64 UInt64),
      GivesBack (Execution.of entry answer).trace := by
  intro h
  have hevents : lockEvents (Execution.of (.ioctrl 1 4096 pullUser) readElapsed).trace =
      [.locked 0] := by
    decide +kernel
  cases h (.ioctrl 1 4096 pullUser) readElapsed with
  | inl hnone =>
      rw [hevents] at hnone
      cases hnone
  | inr hcpu =>
      rcases hcpu with ⟨cpu, hback⟩
      rw [hevents] at hback
      cases hback

end Kernel
end Dmerge
