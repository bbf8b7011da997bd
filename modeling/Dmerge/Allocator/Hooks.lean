import Dmerge.Foundation.Run

/-!
# The extent hooks

A function of the sample keeps its heap in one mapped range, and the allocator takes its
extents from there through a table of hooks.  The heap is a cursor that only goes up: the
alloc hook moves it, and no other hook gives anything back.  Addresses and sizes are
machine words.
-/

namespace Dmerge
namespace Allocator

open Foundation

structure AllocatorMaster where
  startAddr : UInt64
  endAddr : UInt64
  heapTop : UInt64
  deriving DecidableEq, Repr

def AllocatorMaster.init (memAddr memSize : UInt64) : AllocatorMaster where
  startAddr := memAddr
  endAddr := memAddr + memSize
  heapTop := memAddr

/-- The memory of the process. -/
abbrev Memory := UInt64 -> UInt8

def memset (mem : Memory) (dst : UInt64) (c : UInt8) (n : UInt64) : Memory := fun a =>
  if dst.toNat ≤ a.toNat ∧ a.toNat < dst.toNat + n.toNat then c else mem a

/-- A process with its allocator. -/
structure Process where
  master : AllocatorMaster
  mem : Memory

/-!
## The hooks
-/

def AllocatorMaster.alignedTop (m : AllocatorMaster) (alignment : UInt64) : UInt64 :=
  let ret := m.heapTop
  if ret % alignment ≠ 0 then ret + (alignment - ret % alignment) else ret

/-- The address that is asked for is not looked at; null stands for a failure. -/
def extentAllocHook (p : Process) (_newAddr size alignment : UInt64) (zero : Int32) :
    UInt64 × Process :=
  let ret := p.master.alignedTop alignment
  if ret + size ≥ p.master.endAddr then (0, p)
  else
    (ret,
      { master := { p.master with heapTop := ret + size }
        mem := if zero &&& 1 ≠ 0 then memset p.mem ret 0 size else p.mem })

theorem extentAllocHook_full {p : Process} {size alignment : UInt64} (newAddr : UInt64)
    (zero : Int32) (hfull : p.master.endAddr ≤ p.master.alignedTop alignment + size) :
    extentAllocHook p newAddr size alignment zero = (0, p) :=
  if_pos hfull

theorem extentAllocHook_fits {p : Process} {size alignment : UInt64} (newAddr : UInt64)
    (zero : Int32) (hfits : ¬ p.master.endAddr ≤ p.master.alignedTop alignment + size) :
    extentAllocHook p newAddr size alignment zero =
      (p.master.alignedTop alignment,
        { master := { p.master with heapTop := p.master.alignedTop alignment + size }
          mem := if zero &&& 1 ≠ 0 then
            memset p.mem (p.master.alignedTop alignment) 0 size else p.mem }) :=
  if_neg hfits

def extentDallocHook (_addr _size : UInt64) : Int32 := 1

def extentDestroyHook (_addr _size : UInt64) : Unit := ()

def extentCommitHook (_addr _size _offset _length : UInt64) : Int32 := 0

def extentDecommitHook (_addr _size _offset _length : UInt64) : Int32 := 0

def extentPurgeLazyHook (_addr _size _offset _length : UInt64) : Int32 := 1

def extentPurgeForcedHook (_addr _size _offset _length : UInt64) : Int32 := 1

def extentSplitHook (_addr _size _sizeA _sizeB : UInt64) : Int32 := 0

def extentMergeHook (_addrA _sizeA _addrB _sizeB : UInt64) : Int32 := 0

/-!
## Calls of the hooks
-/

inductive HookCall where
  | alloc (newAddr size alignment : UInt64) (zero : Int32)
  | dalloc (addr size : UInt64)
  | destroy (addr size : UInt64)
  | commit (addr size offset length : UInt64)
  | decommit (addr size offset length : UInt64)
  | purgeLazy (addr size offset length : UInt64)
  | purgeForced (addr size offset length : UInt64)
  | split (addr size sizeA sizeB : UInt64)
  | merge (addrA sizeA addrB sizeB : UInt64)
  deriving DecidableEq, Repr

inductive HookResult where
  | extent (addr : UInt64)
  | code (c : Int32)
  | none
  deriving DecidableEq

structure HookEvent where
  call : HookCall
  result : HookResult
  deriving DecidableEq

/-- The hook of the table that a call goes to.  The remainder by a zero alignment aborts. -/
def serveHook (p : Process) : HookCall -> Option (HookResult × Process)
  | .alloc newAddr size alignment zero =>
      if alignment = 0 then none
      else
        let (ret, p') := extentAllocHook p newAddr size alignment zero
        some (.extent ret, p')
  | .dalloc addr size => some (.code (extentDallocHook addr size), p)
  | .destroy addr size =>
      let _ := extentDestroyHook addr size
      some (.none, p)
  | .commit addr size offset length => some (.code (extentCommitHook addr size offset length), p)
  | .decommit addr size offset length =>
      some (.code (extentDecommitHook addr size offset length), p)
  | .purgeLazy addr size offset length =>
      some (.code (extentPurgeLazyHook addr size offset length), p)
  | .purgeForced addr size offset length =>
      some (.code (extentPurgeForcedHook addr size offset length), p)
  | .split addr size sizeA sizeB => some (.code (extentSplitHook addr size sizeA sizeB), p)
  | .merge addrA sizeA addrB sizeB =>
      some (.code (extentMergeHook addrA sizeA addrB sizeB), p)

theorem serveHook_alloc (p : Process) {newAddr size alignment : UInt64} {zero : Int32}
    (hne : alignment ≠ 0) :
    serveHook p (.alloc newAddr size alignment zero) =
      some (.extent (extentAllocHook p newAddr size alignment zero).1,
        (extentAllocHook p newAddr size alignment zero).2) :=
  if_neg hne

/-- One call of a hook; a run is a list of calls. -/
def hookStep (p : Process) (call : HookCall) : Option (Process × List HookEvent) :=
  (serveHook p call).map fun r => (r.2, [{ call := call, result := r.1 }])

/-- The process before the first call. -/
def Process.start (memAddr memSize : UInt64) (mem : Memory) : Process where
  master := AllocatorMaster.init memAddr memSize
  mem := mem

end Allocator
end Dmerge
