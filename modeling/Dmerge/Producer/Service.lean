import Dmerge.Producer.Capture

/-!
# The registry of heaps

A registered heap is bundled with a buffer of the memory pool that holds its
serialized descriptor.  The registry maps a hint to its bundle.  The buffers
come from a pool that hands out buffers of one size; a buffer whose bundle was
dropped may be handed out again.
-/

namespace Dmerge
namespace Producer

open Foundation Memory Descriptors

variable {Regs Rdma : Type}

/-!
## The memory pool
-/

/-- The contents of the buffers of the pool, all of one size. -/
structure Pool (bufSize : Nat) where
  bytes : UInt64 -> Bytes
  length_bytes : forall pa, (bytes pa).length = bufSize

namespace Pool

variable {bufSize : Nat}

def zeroed (bufSize : Nat) : Pool bufSize where
  bytes _ := List.replicate bufSize 0
  length_bytes _ := List.length_replicate

def write (p : Pool bufSize) (pa : UInt64) (bs : Bytes) (h : bs.length = bufSize) :
    Pool bufSize where
  bytes a := if a = pa then bs else p.bytes a
  length_bytes a := by
    by_cases ha : a = pa
    · rw [if_pos ha, h]
    · rw [if_neg ha, p.length_bytes]

end Pool

theorem length_serialize (lib : KernelLib Regs Rdma) (d : ParentDescriptor Regs Rdma)
    (buf : Bytes) : (d.serialize lib buf).2.length = buf.length := by
  unfold ParentDescriptor.serialize
  by_cases hshort : buf.length < d.serializationBufLen lib
  · rw [if_pos hshort]
  · rw [if_neg hshort, List.length_append, List.length_drop,
      ← ParentDescriptor.serializationBufLen]
    omega

/-!
## Bundles and the registry
-/

structure HeapBundler (Regs Rdma : Type) where
  heap : ShadowHeap Regs Rdma
  /-- The address of the buffer that holds the serialized descriptor. -/
  serializedBuf : UInt64
  serializedBufLen : Nat
  deriving DecidableEq

/-- The result of `serialize` is not looked at: the bundle is made in any case. -/
def HeapBundler.new (lib : KernelLib Regs Rdma) {bufSize : Nat} (pool : Pool bufSize)
    (heap : ShadowHeap Regs Rdma) (buf : UInt64) :
    HeapBundler Regs Rdma × Pool bufSize :=
  let len := heap.descriptor.serializationBufLen lib
  let written := (heap.descriptor.serialize lib (pool.bytes buf)).2
  ({ heap := heap, serializedBuf := buf, serializedBufLen := len },
    pool.write buf written (by rw [length_serialize, pool.length_bytes]))

theorem HeapBundler.new_same (lib : KernelLib Regs Rdma) {bufSize : Nat} (pool : Pool bufSize)
    (heap : ShadowHeap Regs Rdma) (buf : UInt64) :
    (HeapBundler.new lib pool heap buf).2.bytes buf =
      (heap.descriptor.serialize lib (pool.bytes buf)).2 :=
  if_pos rfl

theorem HeapBundler.new_other (lib : KernelLib Regs Rdma) {bufSize : Nat} (pool : Pool bufSize)
    (heap : ShadowHeap Regs Rdma) {buf a : UInt64} (ha : a ≠ buf) :
    (HeapBundler.new lib pool heap buf).2.bytes a = pool.bytes a :=
  if_neg ha

structure ShadowHeapService (Regs Rdma : Type) where
  registeredHeap : Finmap (fun _ : UInt64 => HeapBundler Regs Rdma)

namespace ShadowHeapService

def empty : ShadowHeapService Regs Rdma := { registeredHeap := ∅ }

def queryDescriptorBuf (s : ShadowHeapService Regs Rdma) (key : UInt64) :
    Option (UInt64 × Nat) :=
  (s.registeredHeap.lookup key).map fun b => (b.serializedBuf, b.serializedBufLen)

def queryDescriptor (s : ShadowHeapService Regs Rdma) (key : UInt64) :
    Option (ParentDescriptor Regs Rdma) :=
  (s.registeredHeap.lookup key).map fun b => b.heap.descriptor

/-- `insert` replaces whatever was registered under the key. -/
def addBundler (s : ShadowHeapService Regs Rdma) (key : UInt64)
    (bundler : HeapBundler Regs Rdma) : ShadowHeapService Regs Rdma :=
  { registeredHeap := s.registeredHeap.insert key bundler }

def unregister (s : ShadowHeapService Regs Rdma) (key : UInt64) :
    ShadowHeapService Regs Rdma :=
  { registeredHeap := s.registeredHeap.erase key }

end ShadowHeapService

/-!
## Identifiers
-/

structure IdFactory where
  curId : UInt64
  deriving DecidableEq, Repr

namespace IdFactory

def create : IdFactory := { curId := 0 }

/-- The counter is incremented under its lock; the module is built with
overflow checks, so the last word is never passed. -/
def allocOneId (f : IdFactory) : Option (UInt64 × IdFactory) :=
  if f.curId.toNat + 1 < 2 ^ 64 then some (f.curId + 1, { curId := f.curId + 1 })
  else none

theorem allocOneId_toNat {f f' : IdFactory} {id : UInt64}
    (h : f.allocOneId = some (id, f')) :
    id.toNat = f.curId.toNat + 1 ∧ f'.curId = id := by
  unfold allocOneId at h
  by_cases hlt : f.curId.toNat + 1 < 2 ^ 64
  · rw [if_pos hlt] at h
    cases h
    refine ⟨?_, rfl⟩
    rw [UInt64.toNat_add]
    exact Nat.mod_eq_of_lt hlt
  · rw [if_neg hlt] at h
    cases h

end IdFactory
end Producer
end Dmerge
