import Mathlib.Logic.Basic

/-!
# Programs that call their surroundings

A handler of a kernel module is straight-line code broken up by calls to
services that it does not own.  A program is the tree of these calls: it
returns, aborts, or makes one call and continues with the answer.  The same
tree is run sequentially against a handler, or step by step among other
programs, so one embedding of the code serves both readings.
-/

namespace Dmerge
namespace Foundation

structure Signature where
  Op : Type
  Res : Op -> Type

inductive Prog (S : Signature) (alpha : Type) where
  | ret (a : alpha)
  | panic (msg : String)
  | call (o : S.Op) (k : S.Res o -> Prog S alpha)

/-- How a program ends. -/
inductive Outcome (alpha : Type) where
  | returned (a : alpha)
  | panicked (msg : String)
  deriving DecidableEq, Repr

namespace Prog

variable {S : Signature} {alpha beta gamma sigma : Type}

def bind : Prog S alpha -> (alpha -> Prog S beta) -> Prog S beta
  | ret a, f => f a
  | panic msg, _ => panic msg
  | call o k, f => call o (fun r => (k r).bind f)

instance : Monad (Prog S) where
  pure := ret
  bind := bind

/-- How a program has ended, if it has. -/
def outcome : Prog S alpha -> Option (Outcome alpha)
  | ret a => some (.returned a)
  | panic msg => some (.panicked msg)
  | call _ _ => none

def expect (msg : String) : Option alpha -> Prog S alpha
  | some a => ret a
  | none => panic msg

@[simp] theorem pure_eq (a : alpha) : (pure a : Prog S alpha) = ret a := rfl

@[simp] theorem ret_bind (a : alpha) (f : alpha -> Prog S beta) :
    (ret a >>= f) = f a := rfl

@[simp] theorem panic_bind (msg : String) (f : alpha -> Prog S beta) :
    (panic msg >>= f) = panic msg := rfl

@[simp] theorem call_bind (o : S.Op) (k : S.Res o -> Prog S alpha)
    (f : alpha -> Prog S beta) :
    (call o k >>= f) = call o (fun r => k r >>= f) := rfl

@[simp] theorem expect_some (msg : String) (a : alpha) :
    (expect msg (some a) : Prog S alpha) = ret a := rfl

@[simp] theorem expect_none (msg : String) :
    (expect msg (none : Option alpha) : Prog S alpha) = panic msg := rfl

theorem bind_assoc (p : Prog S alpha) (f : alpha -> Prog S beta)
    (g : beta -> Prog S gamma) :
    (p >>= f) >>= g = p >>= fun a => f a >>= g := by
  induction p with
  | ret a => rfl
  | panic msg => rfl
  | call o k ih =>
      simp only [call_bind]
      congr 1
      funext r
      exact ih r

/-!
## Sequential runs

A handler answers each call from a state that it may change.
-/

def run (h : (o : S.Op) -> sigma -> S.Res o × sigma) :
    Prog S alpha -> sigma -> Outcome alpha × sigma
  | ret a, s => (.returned a, s)
  | panic msg, s => (.panicked msg, s)
  | call o k, s => (k (h o s).1).run h (h o s).2

section Run

variable (h : (o : S.Op) -> sigma -> S.Res o × sigma)

@[simp] theorem run_ret (a : alpha) (s : sigma) :
    (ret a : Prog S alpha).run h s = (.returned a, s) := rfl

@[simp] theorem run_panic (msg : String) (s : sigma) :
    (panic msg : Prog S alpha).run h s = (.panicked msg, s) := rfl

@[simp] theorem run_call (o : S.Op) (k : S.Res o -> Prog S alpha) (s : sigma) :
    (call o k).run h s = (k (h o s).1).run h (h o s).2 := rfl

theorem run_bind (p : Prog S alpha) (f : alpha -> Prog S beta) (s : sigma) :
    (p >>= f).run h s =
      match p.run h s with
      | (.returned a, t) => (f a).run h t
      | (.panicked msg, t) => (.panicked msg, t) := by
  induction p generalizing s with
  | ret a => rfl
  | panic msg => rfl
  | call o k ih => exact ih (h o s).1 (h o s).2

theorem run_expect_returned {msg : String} {a : Option alpha} {f : alpha -> Prog S beta}
    {b : beta} {s t : sigma} (hrun : (expect msg a >>= f).run h s = (.returned b, t)) :
    exists x, a = some x ∧ (f x).run h s = (.returned b, t) := by
  cases a with
  | none => cases hrun
  | some x => exact ⟨x, rfl, hrun⟩

end Run
end Prog

/-!
## Protocols

A protocol is what a program assumes about the answers it gets and what it
promises about the calls it makes.  Conformance is read off the tree of calls,
so it is proved once for the code and then used in every system that runs it.
-/

structure Protocol (S : Signature) where
  State : Type
  /-- The calls a program may make in a state. -/
  may : State -> S.Op -> Prop
  /-- The answers a call may get, with the state after the answer. -/
  next : State -> (o : S.Op) -> S.Res o -> State -> Prop

def Protocol.restrict {S : Signature} (P : Protocol S) (allow : S.Op -> Prop) : Protocol S where
  State := P.State
  may g o := P.may g o ∧ allow o
  next := P.next

namespace Prog

variable {S : Signature} {alpha beta sigma : Type}

def Conforms (P : Protocol S) (post : P.State -> Outcome alpha -> Prop) :
    Prog S alpha -> P.State -> Prop
  | ret a, g => post g (.returned a)
  | panic msg, g => post g (.panicked msg)
  | call o k, g =>
      P.may g o ∧ forall r g', P.next g o r g' -> (k r).Conforms P post g'

section Conforms

variable {P : Protocol S} {post weaker : P.State -> Outcome alpha -> Prop}
variable {g : P.State}

theorem Conforms.weaken {p : Prog S alpha} (hp : p.Conforms P post g)
    (himp : forall g o, post g o -> weaker g o) : p.Conforms P weaker g := by
  induction p generalizing g with
  | ret a => exact himp g _ hp
  | panic msg => exact himp g _ hp
  | call o k ih =>
      refine ⟨hp.1, ?_⟩
      intro r g' hnext
      exact ih r (hp.2 r g' hnext)

theorem Conforms.bind {p : Prog S alpha} {f : alpha -> Prog S beta}
    {post' : P.State -> Outcome beta -> Prop}
    (hp : p.Conforms P post g)
    (hret : forall g a, post g (.returned a) -> (f a).Conforms P post' g)
    (hpanic : forall g msg, post g (.panicked msg) -> post' g (.panicked msg)) :
    (p >>= f).Conforms P post' g := by
  induction p generalizing g with
  | ret a => exact hret g a hp
  | panic msg => exact hpanic g msg hp
  | call o k ih =>
      refine ⟨hp.1, ?_⟩
      intro r g' hnext
      exact ih r (hp.2 r g' hnext)

theorem Conforms.still {o : S.Op} {k : S.Res o -> Prog S alpha} (hmay : P.may g o)
    (hkeeps : forall r g', P.next g o r g' -> g' = g)
    (hk : forall r g', P.next g o r g' -> (k r).Conforms P post g) :
    (call o k).Conforms P post g := by
  refine ⟨hmay, ?_⟩
  intro r g' hnext
  rw [hkeeps r g' hnext]
  exact hk r g' hnext

theorem Conforms.expect {msg : String} {a : Option alpha} {f : alpha -> Prog S beta}
    {post' : P.State -> Outcome beta -> Prop} (hpanic : post' g (.panicked msg))
    (hk : forall x, a = some x -> (f x).Conforms P post' g) :
    (Prog.expect msg a >>= f).Conforms P post' g := by
  cases a with
  | none => exact hpanic
  | some x => exact hk x rfl

theorem Conforms.run {h : (o : S.Op) -> sigma -> S.Res o × sigma}
    {coupled : P.State -> sigma -> Prop} {p : Prog S alpha} {s : sigma}
    (hp : p.Conforms P post g) (hcoupled : coupled g s)
    (hanswer : forall g s o, P.may g o -> coupled g s ->
      exists g', P.next g o (h o s).1 g' ∧ coupled g' (h o s).2) :
    exists g', post g' (p.run h s).1 ∧ coupled g' (p.run h s).2 := by
  induction p generalizing g s with
  | ret a => exact ⟨g, hp, hcoupled⟩
  | panic msg => exact ⟨g, hp, hcoupled⟩
  | call o k ih =>
      rcases hanswer g s o hp.1 hcoupled with ⟨g', hnext, hcoupled'⟩
      exact ih _ (hp.2 _ g' hnext) hcoupled'

end Conforms

/-!
## What a program yields whatever it is told
-/

def Yields (post : alpha -> Prop) : Prog S alpha -> Prop
  | ret a => post a
  | panic _ => True
  | call _ k => forall r, (k r).Yields post

section Yields

variable {post : alpha -> Prop} {post' : beta -> Prop}

theorem Yields.bind {p : Prog S alpha} {f : alpha -> Prog S beta} (hp : p.Yields post)
    (hf : forall a, post a -> (f a).Yields post') : (p >>= f).Yields post' := by
  induction p with
  | ret a => exact hf a hp
  | panic msg => exact True.intro
  | call o k ih =>
      intro r
      exact ih r (hp r)

theorem yields_expect {msg : String} {x : Option alpha} {f : alpha -> Prog S beta}
    (hf : forall a, (f a).Yields post') : (expect msg x >>= f).Yields post' := by
  cases x with
  | none => exact True.intro
  | some a => exact hf a

theorem Yields.run {h : (o : S.Op) -> sigma -> S.Res o × sigma} {p : Prog S alpha}
    {s t : sigma} {a : alpha} (hp : p.Yields post) (hrun : p.run h s = (.returned a, t)) :
    post a := by
  induction p generalizing s with
  | ret b =>
      cases hrun
      exact hp
  | panic msg => cases hrun
  | call o k ih => exact ih _ (hp _) hrun

end Yields

/-!
## Programs that make some calls only
-/

def Only (allow : S.Op -> Prop) : Prog S alpha -> Prop
  | ret _ => True
  | panic _ => True
  | call o k => allow o ∧ forall r, (k r).Only allow

section Only

variable {allow : S.Op -> Prop}

theorem Only.bind {p : Prog S alpha} {f : alpha -> Prog S beta} (hp : p.Only allow)
    (hf : forall a, (f a).Only allow) : (p >>= f).Only allow := by
  induction p with
  | ret a => exact hf a
  | panic msg => exact True.intro
  | call o k ih => exact ⟨hp.1, fun r => ih r (hp.2 r)⟩

theorem Only.weaken {wider : S.Op -> Prop} {p : Prog S alpha} (hp : p.Only allow)
    (himp : forall o, allow o -> wider o) : p.Only wider := by
  induction p with
  | ret a => exact True.intro
  | panic msg => exact True.intro
  | call o k ih => exact ⟨himp o hp.1, fun r => ih r (hp.2 r)⟩

theorem Only.and {allow' : S.Op -> Prop} {p : Prog S alpha} (hp : p.Only allow)
    (hp' : p.Only allow') : p.Only fun o => allow o ∧ allow' o := by
  induction p with
  | ret a => exact True.intro
  | panic msg => exact True.intro
  | call o k ih => exact ⟨⟨hp.1, hp'.1⟩, fun r => ih r (hp.2 r) (hp'.2 r)⟩

theorem only_of_forall (h : forall o, allow o) (p : Prog S alpha) : p.Only allow := by
  induction p with
  | ret a => exact True.intro
  | panic msg => exact True.intro
  | call o k ih => exact ⟨h o, ih⟩

theorem only_expect (msg : String) (a : Option alpha) :
    (expect msg a : Prog S alpha).Only allow := by
  cases a with
  | none => exact True.intro
  | some a => exact True.intro

theorem Only.conforms {P : Protocol S} {p : Prog S alpha} (hp : p.Only allow)
    (hmay : forall g o, allow o -> P.may g o)
    (hkeeps : forall g o r g', allow o -> P.next g o r g' -> g' = g) (g : P.State) :
    p.Conforms P (fun g' _ => g' = g) g := by
  induction p with
  | ret a => exact rfl
  | panic msg => exact rfl
  | call o k ih =>
      apply Conforms.still (hmay g o hp.1)
      · intro r g' hnext
        exact hkeeps g o r g' hp.1 hnext
      · intro r _ _
        exact ih r (hp.2 r)

theorem Conforms.restrict {P : Protocol S} {post : P.State -> Outcome alpha -> Prop}
    {p : Prog S alpha} {g : P.State} (hp : p.Conforms P post g) (honly : p.Only allow) :
    p.Conforms (P.restrict allow) post g := by
  induction p generalizing g with
  | ret a => exact hp
  | panic msg => exact hp
  | call o k ih =>
      refine ⟨⟨hp.1, honly.1⟩, ?_⟩
      intro r g' hnext
      exact ih r (hp.2 r g' hnext) (honly.2 r)

theorem Only.run_preserves {h : (o : S.Op) -> sigma -> S.Res o × sigma}
    {inv : sigma -> Prop} {p : Prog S alpha} (hp : p.Only allow)
    (hcall : forall o s, allow o -> inv s -> inv (h o s).2) {s : sigma} (hs : inv s) :
    inv (p.run h s).2 := by
  induction p generalizing s with
  | ret a => exact hs
  | panic msg => exact hs
  | call o k ih => exact ih _ (hp.2 _) (hcall o s hp.1 hs)

theorem Only.run_part {tau : Type} {h : (o : S.Op) -> sigma -> S.Res o × sigma}
    {h' : (o : S.Op) -> tau -> S.Res o × tau} {p : Prog S alpha}
    (hp : p.Only allow) (whole : tau -> sigma)
    (hcall : forall o t, allow o -> h o (whole t) = ((h' o t).1, whole (h' o t).2)) (t : tau) :
    p.run h (whole t) = ((p.run h' t).1, whole (p.run h' t).2) := by
  induction p generalizing t with
  | ret a => rfl
  | panic msg => rfl
  | call o k ih =>
      rw [run_call, run_call, hcall o t hp.1]
      exact ih _ (hp.2 _) _

end Only

/-!
## Programs inside a world

`coupled g s` relates a protocol state to a state of the world the program
runs in.  A program follows its protocol when what is left of it conforms from
a state coupled with the world.
-/

def Follows (P : Protocol S) (post : P.State -> Outcome alpha -> Prop)
    (coupled : P.State -> sigma -> Prop) (p : Prog S alpha) (s : sigma) : Prop :=
  exists g, p.Conforms P post g ∧ coupled g s

section Follows

variable {P : Protocol S} {post : P.State -> Outcome alpha -> Prop}
variable {coupled : P.State -> sigma -> Prop}

theorem Follows.answer {o : S.Op} {k : S.Res o -> Prog S alpha} {s s' : sigma}
    {r : S.Res o} (hfollows : Follows P post coupled (call o k) s)
    (hanswer : forall g, P.may g o -> coupled g s ->
      exists g', P.next g o r g' ∧ coupled g' s') :
    Follows P post coupled (k r) s' := by
  rcases hfollows with ⟨g, hconf, hcoupled⟩
  rcases hanswer g hconf.1 hcoupled with ⟨g', hnext, hcoupled'⟩
  exact ⟨g', hconf.2 r g' hnext, hcoupled'⟩

theorem Follows.interfere {p : Prog S alpha} {s s' : sigma}
    (hfollows : Follows P post coupled p s)
    (hstable : forall g, coupled g s -> coupled g s') :
    Follows P post coupled p s' := by
  rcases hfollows with ⟨g, hconf, hcoupled⟩
  exact ⟨g, hconf, hstable g hcoupled⟩

end Follows
end Prog
end Foundation
end Dmerge
