import Dmerge.Foundation.Prog

/-!
# Executions

An execution is a program that has run to its end, with the calls it made and
the answers it got; nothing is assumed about the answers.  A monitor reads an
execution call by call.  It is a protocol whose next state is computed, so the
state that a conforming program ends in can be read off its execution.
-/

namespace Dmerge
namespace Foundation

/-- A call and its answer. -/
structure Exchange (S : Signature) where
  op : S.Op
  res : S.Res op

structure Monitor (S : Signature) where
  State : Type
  may : State -> S.Op -> Prop
  after : State -> (o : S.Op) -> S.Res o -> State

namespace Monitor

variable {S : Signature}

def protocol (M : Monitor S) : Protocol S where
  State := M.State
  may := M.may
  next g o r g' := g' = M.after g o r

/-- The state after the calls of a trace. -/
def follow (M : Monitor S) (g : M.State) (trace : List (Exchange S)) : M.State :=
  trace.foldl (fun g e => M.after g e.op e.res) g

/-- Every call of a trace is allowed when it is made. -/
def Allows (M : Monitor S) : M.State -> List (Exchange S) -> Prop
  | _, [] => True
  | g, e :: rest => M.may g e.op ∧ M.Allows (M.after g e.op e.res) rest

@[simp] theorem follow_nil (M : Monitor S) (g : M.State) : M.follow g [] = g := rfl

@[simp] theorem follow_cons (M : Monitor S) (g : M.State) (e : Exchange S)
    (rest : List (Exchange S)) :
    M.follow g (e :: rest) = M.follow (M.after g e.op e.res) rest := rfl

end Monitor

namespace Prog

variable {S : Signature} {alpha beta sigma : Type}

inductive Executes : Prog S alpha -> List (Exchange S) -> Outcome alpha -> Prop where
  | ret (a : alpha) : Executes (ret a) [] (.returned a)
  | panic (msg : String) : Executes (panic msg) [] (.panicked msg)
  | call (o : S.Op) (r : S.Res o) (k : S.Res o -> Prog S alpha) (trace : List (Exchange S))
      (out : Outcome alpha) (hrest : Executes (k r) trace out) :
      Executes (call o k) (⟨o, r⟩ :: trace) out

/-!
## The parts of an execution
-/

theorem Executes.of_ret {a : alpha} {trace : List (Exchange S)} {out : Outcome alpha}
    (h : Executes (Prog.ret a) trace out) : trace = [] ∧ out = .returned a := by
  cases h
  exact ⟨rfl, rfl⟩

theorem Executes.of_call {o : S.Op} {k : S.Res o -> Prog S alpha}
    {trace : List (Exchange S)} {out : Outcome alpha} (h : Executes (Prog.call o k) trace out) :
    exists r rest, trace = ⟨o, r⟩ :: rest ∧ Executes (k r) rest out := by
  cases h with
  | call o r k rest out hrest => exact ⟨r, rest, rfl, hrest⟩

theorem Executes.of_bind {p : Prog S alpha} {f : alpha -> Prog S beta}
    {trace : List (Exchange S)} {b : beta} (h : Executes (p >>= f) trace (.returned b)) :
    exists first a second, trace = first ++ second ∧ Executes p first (.returned a) ∧
      Executes (f a) second (.returned b) := by
  induction p generalizing trace with
  | ret a => exact ⟨[], a, trace, rfl, Executes.ret a, h⟩
  | panic msg => cases h
  | call o k ih =>
      rcases h.of_call with ⟨r, rest, rfl, hrest⟩
      rcases ih r hrest with ⟨first, a, second, rfl, hfirst, hsecond⟩
      exact ⟨⟨o, r⟩ :: first, a, second, rfl, Executes.call o r k first _ hfirst, hsecond⟩

theorem Executes.of_expect {msg : String} {x : Option alpha} {f : alpha -> Prog S beta}
    {trace : List (Exchange S)} {b : beta}
    (h : Executes (Prog.expect msg x >>= f) trace (.returned b)) :
    exists a, x = some a ∧ Executes (f a) trace (.returned b) := by
  cases x with
  | none => cases h
  | some a => exact ⟨a, rfl, h⟩

theorem Conforms.executes {M : Monitor S} {post : M.State -> Outcome alpha -> Prop}
    {p : Prog S alpha} {g : M.State} {trace : List (Exchange S)} {out : Outcome alpha}
    (hp : p.Conforms M.protocol post g) (hexec : Executes p trace out) :
    M.Allows g trace ∧ post (M.follow g trace) out := by
  induction hexec generalizing g with
  | ret a => exact ⟨True.intro, hp⟩
  | panic msg => exact ⟨True.intro, hp⟩
  | call o r k trace out hrest ih =>
      rcases ih (hp.2 r _ rfl) with ⟨hallows, hpost⟩
      exact ⟨⟨hp.1, hallows⟩, hpost⟩

def record (h : (o : S.Op) -> sigma -> S.Res o × sigma) :
    Prog S alpha -> sigma -> List (Exchange S)
  | ret _, _ => []
  | panic _, _ => []
  | call o k, s => ⟨o, (h o s).1⟩ :: (k (h o s).1).record h (h o s).2

theorem executes_record (h : (o : S.Op) -> sigma -> S.Res o × sigma) (p : Prog S alpha)
    (s : sigma) : Executes p (p.record h s) (p.run h s).1 := by
  induction p generalizing s with
  | ret a => exact Executes.ret a
  | panic msg => exact Executes.panic msg
  | call o k ih => exact Executes.call o (h o s).1 k _ _ (ih (h o s).1 (h o s).2)

end Prog
end Foundation
end Dmerge
