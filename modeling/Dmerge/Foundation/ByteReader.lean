import Dmerge.Foundation.ByteCodec

/-!
# Readers over a byte cursor

A reader moves a cursor through a buffer.  It stops either because the input
is rejected or because the code aborts.  Some reads do not check that enough
bytes remain; the cursor keeps a log of them, so that memory safety can be
stated about the reader itself.
-/

namespace Dmerge
namespace Foundation

/-- Why a reader stopped early. -/
inductive Stop where
  | reject
  | abort
  deriving DecidableEq, Repr

structure Peek where
  width : Nat
  remaining : Nat
  deriving DecidableEq, Repr

structure Cursor where
  rest : Bytes
  peeks : List Peek
  deriving DecidableEq, Repr

def Cursor.Inside (c : Cursor) : Prop := forall p, p ∈ c.peeks -> p.width ≤ p.remaining

abbrev Reader := EStateM Stop Cursor

namespace Reader

variable {alpha beta : Type}

def abort : Reader alpha := fun c => .error .abort c

def advance (n : Nat) : Reader Unit := fun c =>
  if c.rest.length < n then .error .reject c
  else .ok () { c with rest := c.rest.drop n }

def decodeWith (decode : Bytes -> Option alpha) : Reader alpha := fun c =>
  match decode c.rest with
  | some a => .ok a c
  | none => .error .reject c

/-- Read `w` bytes at the cursor without moving it. -/
def word (w : Nat) : Reader Nat := fun c =>
  if c.rest.length < w then .error .reject c else .ok (fromLE (c.rest.take w)) c

/-- Read `w` bytes at the cursor without moving it and without a check.  What a
short buffer yields here is not determined by the buffer. -/
def peek (w : Nat) : Reader Nat := fun c =>
  .ok (fromLE (c.rest.take w)) { c with peeks := c.peeks ++ [⟨w, c.rest.length⟩] }

def runOn (r : Reader alpha) (bs : Bytes) : Except Stop alpha × List Peek :=
  match r { rest := bs, peeks := [] } with
  | .ok a c => (.ok a, c.peeks)
  | .error e c => (.error e, c.peeks)

/-!
## Sequencing

A reader that succeeds hands its cursor to the rest; a reader that stops ends
the whole.
-/

theorem bind_ok {r : Reader alpha} {c c' : Cursor} {a : alpha}
    (h : r c = .ok a c') (f : alpha -> Reader beta) : (r >>= f) c = f a c' := by
  show EStateM.bind r f c = f a c'
  simp [EStateM.bind, h]

theorem bind_error {r : Reader alpha} {c c' : Cursor} {e : Stop}
    (h : r c = .error e c') (f : alpha -> Reader beta) : (r >>= f) c = .error e c' := by
  show EStateM.bind r f c = .error e c'
  simp [EStateM.bind, h]

/-!
## Unchecked reads

A run is inside its buffer when every unchecked read that it makes takes bytes that are
there.  What matters for this is the cursor where the run stops, for whatever reason.
-/

def finish (r : Reader alpha) (c : Cursor) : Cursor :=
  match r c with
  | .ok _ c' => c'
  | .error _ c' => c'

theorem finish_error {r : Reader alpha} {c c' : Cursor} {e : Stop} (h : r c = .error e c') :
    r.finish c = c' := by
  unfold finish
  rw [h]

theorem finish_bind_ok {r : Reader alpha} {c c' : Cursor} {a : alpha} (h : r c = .ok a c')
    (f : alpha -> Reader beta) : (r >>= f).finish c = (f a).finish c' := by
  unfold finish
  rw [bind_ok h]

theorem finish_bind_error {r : Reader alpha} {c c' : Cursor} {e : Stop}
    (h : r c = .error e c') (f : alpha -> Reader beta) : (r >>= f).finish c = c' := by
  apply finish_error
  exact bind_error h f

theorem finish_bind_peeks (r : Reader alpha) {f : alpha -> Reader beta}
    (hf : forall a c, ((f a).finish c).peeks = c.peeks) (c : Cursor) :
    ((r >>= f).finish c).peeks = (r.finish c).peeks := by
  cases hr : r c with
  | ok a c' =>
      rw [finish_bind_ok hr, hf]
      unfold finish
      rw [hr]
  | error e c' => rw [finish_bind_error hr, finish_error hr]

theorem runOn_peeks (r : Reader alpha) (bs : Bytes) :
    (r.runOn bs).2 = (r.finish { rest := bs, peeks := [] }).peeks := by
  unfold runOn finish
  cases r { rest := bs, peeks := [] } with
  | ok a c => rfl
  | error e c => rfl

/-!
## Reading what a codec wrote

`Reads r bs a rest` says that `r` started at `bs` returns `a` and leaves the
cursor at `rest`.  A reader of a format is proved against its writer by
composing these facts along the format.
-/

def Reads (r : Reader alpha) (bs : Bytes) (a : alpha) (rest : Bytes) : Prop :=
  forall peeks, exists peeks',
    r { rest := bs, peeks } = .ok a { rest, peeks := peeks' }

theorem reads_pure (a : alpha) (bs : Bytes) : Reads (pure a) bs a bs := by
  intro peeks
  exact ⟨peeks, rfl⟩

theorem Reads.bind {r : Reader alpha} {f : alpha -> Reader beta}
    {bs bs' bs'' : Bytes} {a : alpha} {b : beta}
    (hr : Reads r bs a bs') (hf : Reads (f a) bs' b bs'') :
    Reads (r >>= f) bs b bs'' := by
  intro peeks
  rcases hr peeks with ⟨peeks', hread⟩
  rcases hf peeks' with ⟨peeks'', hread'⟩
  exact ⟨peeks'', by rw [bind_ok hread, hread']⟩

theorem Reads.runOn {r : Reader alpha} {bs rest : Bytes} {a : alpha}
    (hr : Reads r bs a rest) : (r.runOn bs).1 = .ok a := by
  rcases hr [] with ⟨peeks', hread⟩
  simp [Reader.runOn, hread]

theorem reads_advance {bs : Bytes} {n : Nat} (h : bs.length = n) (rest : Bytes) :
    Reads (advance n) (bs ++ rest) () rest := by
  intro peeks
  subst h
  exact ⟨peeks, by simp [advance]⟩

theorem reads_decodeWith (c : Codec alpha) (a : alpha) (rest : Bytes) :
    Reads (decodeWith c.decode) (c.encode a ++ rest) a (c.encode a ++ rest) := by
  intro peeks
  exact ⟨peeks, by simp [decodeWith, c.decode_encode]⟩

theorem reads_word {bs : Bytes} {w : Nat} (h : bs.length = w) (rest : Bytes) :
    Reads (word w) (bs ++ rest) (fromLE bs) (bs ++ rest) := by
  intro peeks
  subst h
  exact ⟨peeks, by simp [word]⟩

theorem reads_peek {bs : Bytes} {w : Nat} (h : bs.length = w) (rest : Bytes) :
    Reads (peek w) (bs ++ rest) (fromLE bs) (bs ++ rest) := by
  intro peeks
  subst h
  exact ⟨peeks ++ [⟨bs.length, (bs ++ rest).length⟩], by simp [peek]⟩

end Reader
end Foundation
end Dmerge
