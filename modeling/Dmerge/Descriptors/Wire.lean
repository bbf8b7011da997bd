import Mathlib.Data.Finmap
import Dmerge.Foundation.ByteReader
import Dmerge.Memory.AddressSpace

/-!
# Descriptors and their wire format

The producer describes a heap by a parent descriptor: its registers, its VMAs,
one compact page table for each VMA, and the RDMA metadata of the machine.  The
consumer decodes the same bytes to a heap descriptor whose page tables are
merged into one remote page table.

The codecs of the register, VMA and RDMA descriptors and of the RPC messages
belong to the kernel library the module is built on.  They are parameters, and
a codec carries the laws that the code relies on.
-/

namespace Dmerge
namespace Descriptors

open Foundation Memory

/-- `vma.generate_descriptor()` keeps the range and the flags. -/
structure VMADescriptor where
  vmStart : UInt64
  vmEnd : UInt64
  flags : UInt64
  deriving DecidableEq, Repr

namespace VMADescriptor

def getStart (m : VMADescriptor) : Nat := m.vmStart.toNat

def getEnd (m : VMADescriptor) : Nat := m.vmEnd.toNat

def Covers (m : VMADescriptor) (addr : Nat) : Prop :=
  m.getStart ≤ addr ∧ addr < m.getEnd

instance (m : VMADescriptor) (addr : Nat) : Decidable (m.Covers addr) :=
  inferInstanceAs (Decidable (_ ∧ _))

end VMADescriptor

abbrev PageEntry := UInt32 × UInt64

abbrev CompactPageTable := List PageEntry

/-- `add_one`: the offset is narrowed to the 32 bits that an entry stores. -/
def CompactPageTable.addOne (pt : CompactPageTable) (offset : Nat)
    (phy : UInt64) : CompactPageTable :=
  pt ++ [(UInt32.ofNat offset, phy)]

variable (Regs Rdma : Type)

/-- `mitosis::descriptors::ParentDescriptor` -/
structure ParentDescriptor where
  regs : Regs
  pageTable : List CompactPageTable
  vma : List VMADescriptor
  machineInfo : Rdma
  deriving DecidableEq, Repr

abbrev RemotePageTable := Finmap (fun _ : Nat => Nat)

structure HeapDescriptor where
  regs : Regs
  pageTable : RemotePageTable
  vma : List VMADescriptor
  machineInfo : Rdma
  deriving DecidableEq

/-- The reply to a query. -/
structure HeapDescriptorQueryReply where
  pa : UInt64
  sz : UInt64
  ready : Bool
  deriving DecidableEq, Repr

structure RegisterRemoteReq where
  pa : UInt64
  sz : UInt64
  sourceMachineId : UInt64
  ready : Bool
  deriving DecidableEq, Repr

structure RegisterRemoteReply where
  heapHint : Int64
  deriving DecidableEq

/-- What the module takes from the kernel library: its configuration, the flag that
marks an allocated VMA, the size of a VMA, the formatted write to a buffer, and its
codecs.  `get_sz` panics or not, as the library pleases, where a VMA ends before it
starts.  The messages are plain copies of memory, so their codecs are of a fixed
size. -/
structure KernelLib where
  maxCoreCnt : Nat
  vmAlloc : UInt64
  getSz : VMADescriptor -> Option UInt64
  getSz_of_le : forall m, m.getStart ≤ m.getEnd -> getSz m = some (m.vmEnd - m.vmStart)
  writeStr : Bytes -> String -> Option Bytes
  regs : Codec Regs
  vma : Codec VMADescriptor
  rdma : Codec Rdma
  usize : FixedCodec UInt64
  queryReply : FixedCodec HeapDescriptorQueryReply
  registerReq : FixedCodec RegisterRemoteReq
  registerReply : FixedCodec RegisterRemoteReply

variable {Regs Rdma}

/-!
## Encoding
-/

def encodeEntry (e : PageEntry) : Bytes :=
  toLE 4 e.1.toNat ++ toLE 8 e.2.toNat

def encodePageTable (pt : CompactPageTable) : Bytes :=
  toLE 8 pt.length ++ ((if pt.length % 2 = 1 then toLE 4 0 else []) ++
    pt.flatMap encodeEntry)

def encodeVma (lib : KernelLib Regs Rdma) (p : VMADescriptor × CompactPageTable) : Bytes :=
  lib.vma.encode p.1 ++ encodePageTable p.2

namespace ParentDescriptor

def encode (lib : KernelLib Regs Rdma) (d : ParentDescriptor Regs Rdma) : Bytes :=
  lib.regs.encode d.regs ++ (toLE 8 d.vma.length ++
    ((d.vma.zip d.pageTable).flatMap (encodeVma lib) ++ lib.rdma.encode d.machineInfo))

def serializationBufLen (lib : KernelLib Regs Rdma) (d : ParentDescriptor Regs Rdma) : Nat :=
  (d.encode lib).length

/-- Writes the encoding at the head of the buffer, or reports failure and
leaves the buffer alone when it is too short. -/
def serialize (lib : KernelLib Regs Rdma) (d : ParentDescriptor Regs Rdma)
    (buf : Bytes) : Bool × Bytes :=
  if buf.length < d.serializationBufLen lib then (false, buf)
  else (true, d.encode lib ++ buf.drop (d.serializationBufLen lib))

end ParentDescriptor

/-!
## Decoding
-/

namespace RemotePageTable

def map (pt : RemotePageTable) (virt phy : Nat) : RemotePageTable :=
  Finmap.insert virt phy pt

def translate (pt : RemotePageTable) (virt : Nat) : Option Nat :=
  Finmap.lookup virt pt

end RemotePageTable

/-- Addition of 64-bit words; the module is built with overflow checks. -/
def checkedAdd (a b : Nat) : Reader Nat :=
  if a + b < 2 ^ 64 then pure (a + b) else Reader.abort

namespace HeapDescriptor

def deserializeEntries (vmaStart : Nat) :
    Nat -> RemotePageTable -> Reader RemotePageTable
  | 0, pt => pure pt
  | n + 1, pt => do
      let virt ← Reader.peek 4
      Reader.advance 4
      let phy ← Reader.peek 8
      Reader.advance 8
      let addr ← checkedAdd virt vmaStart
      deserializeEntries vmaStart n (RemotePageTable.map pt addr phy)

/-- The pad before the entries: an offset is narrower than an address, so a
table with an odd number of entries is padded. -/
def deserializePad (pageNum : Nat) : Reader Unit :=
  if pageNum % 2 = 1 then do
    let _ ← Reader.word 4
    Reader.advance 4
  else
    pure ()

def deserializeVmas (lib : KernelLib Regs Rdma) :
    Nat -> List VMADescriptor -> RemotePageTable ->
      Reader (List VMADescriptor × RemotePageTable)
  | 0, vmas, pt => pure (vmas, pt)
  | n + 1, vmas, pt => do
      let vma ← Reader.decodeWith lib.vma.decode
      Reader.advance (lib.vma.bufLen vma)
      let vmaStart := vma.getStart
      let pageNum ← Reader.word 8
      Reader.advance 8
      deserializePad pageNum
      let pt ← deserializeEntries vmaStart pageNum pt
      deserializeVmas lib n (vmas ++ [vma]) pt

def reader (lib : KernelLib Regs Rdma) : Reader (HeapDescriptor Regs Rdma) := do
  let regs ← Reader.decodeWith lib.regs.decode
  Reader.advance (lib.regs.bufLen regs)
  let count ← Reader.word 8
  Reader.advance 8
  let (vmas, pt) ← deserializeVmas lib count [] ∅
  let machineInfo ← Reader.decodeWith lib.rdma.decode
  pure { regs := regs, pageTable := pt, vma := vmas, machineInfo := machineInfo }

def deserialize (lib : KernelLib Regs Rdma) (bytes : Bytes) :
    Except Stop (HeapDescriptor Regs Rdma) :=
  ((reader lib).runOn bytes).1

def lookupPgTable (d : HeapDescriptor Regs Rdma) (virt : Nat) : Option Nat :=
  RemotePageTable.translate d.pageTable virt

end HeapDescriptor
/-!
## Plain codecs

One instance of the library: every record is a copy of its words, with a single
word for the registers and for the RDMA metadata.
-/

def word64Bool : FixedCodec Bool :=
  FixedCodec.word64.map (fun w => w ≠ 0) (fun b => if b then 1 else 0)
    (by intro b; cases b <;> decide)

def plainLib : KernelLib UInt64 UInt64 where
  maxCoreCnt := 8
  vmAlloc := 4294967296
  getSz m := if m.getStart ≤ m.getEnd then some (m.vmEnd - m.vmStart) else none
  getSz_of_le _ h := if_pos h
  writeStr output text :=
    if output.length < text.utf8ByteSize then none
    else some (text.toUTF8.toList ++ output.drop text.utf8ByteSize)
  regs := FixedCodec.word64.toCodec
  vma := ((FixedCodec.word64.prod (FixedCodec.word64.prod FixedCodec.word64)).map
    (fun p => { vmStart := p.1, vmEnd := p.2.1, flags := p.2.2 : VMADescriptor })
    (fun m => (m.vmStart, m.vmEnd, m.flags)) (fun _ => rfl)).toCodec
  rdma := FixedCodec.word64.toCodec
  usize := FixedCodec.word64
  queryReply := (FixedCodec.word64.prod (FixedCodec.word64.prod word64Bool)).map
    (fun p => { pa := p.1, sz := p.2.1, ready := p.2.2 })
    (fun d => (d.pa, d.sz, d.ready)) (fun _ => rfl)
  registerReq :=
    (FixedCodec.word64.prod (FixedCodec.word64.prod
      (FixedCodec.word64.prod word64Bool))).map
    (fun p => { pa := p.1, sz := p.2.1, sourceMachineId := p.2.2.1, ready := p.2.2.2 })
    (fun q => (q.pa, q.sz, q.sourceMachineId, q.ready)) (fun _ => rfl)
  registerReply := FixedCodec.word64.map
    (fun w => { heapHint := w.toInt64 }) (fun r => r.heapHint.toUInt64) (fun _ => rfl)

end Descriptors
end Dmerge
