import Dmerge.Foundation.SharedPages
import Dmerge.Kernel.EagerFetch
import Dmerge.Kernel.RemoteRegistration

/-!
# A deployment

Machines with their modules, the processes that hold handles on them, and the
frames of all machines.  The commands of the processes run one after the other;
between them a process touches its pages, writes to them, and the owner of a
frame writes to it.  A page is fetched when it is touched for the first time, or
by an eager pull, from the frame that the descriptor of a pulled heap names.
-/

namespace Dmerge
namespace Kernel

open Foundation Memory Descriptors Producer Prog

variable {Regs Rdma Page : Type} {bufSize : Nat}

/-!
## The memory of a process
-/

structure ProcessMemory (Page : Type) where
  regions : List VMADescriptor
  allocated : List VMADescriptor
  nextPage : PageId
  filled : PageId -> Option Page
  inserted : Nat -> Option Page

def ProcessMemory.empty : ProcessMemory Page where
  regions := []
  allocated := []
  nextPage := 0
  filled _ := none
  inserted _ := none

def ProcessMemory.world (mem : ProcessMemory Page) (heaps : List (HeapDataStruct Regs Rdma)) :
    ReaderWorld Regs Rdma Page where
  regions := mem.regions
  allocated := mem.allocated
  nextPage := mem.nextPage
  filled := mem.filled
  inserted := mem.inserted
  publicHeaps := heaps

def ReaderWorld.memory (w : ReaderWorld Regs Rdma Page) : ProcessMemory Page where
  regions := w.regions
  allocated := w.allocated
  nextPage := w.nextPage
  filled := w.filled
  inserted := w.inserted

/-- The answer to a call of a command: the calls on the memory of the process are those of
a reader, and the others concern the machines. -/
def serveProcess (lib : KernelLib Regs Rdma) (machine : UInt64) (self : Nat)
    (env : CallEnv Regs Rdma) (c : Reader Regs Rdma Page) :
    (o : KernelOp Regs Rdma) -> Session Regs Rdma bufSize × ProcessMemory Page ->
      o.Res × (Session Regs Rdma bufSize × ProcessMemory Page)
  | .accessInfoNew machineInfo, (st, mem) =>
      ((c.answer (.accessInfoNew machineInfo) (mem.world [])).1, (st, mem))
  | .mapOneRegion m next, (st, mem) =>
      let r := c.answer (.mapOneRegion m next) (mem.world [])
      (r.1, (st, r.2.memory))
  | .setAlloc m, (st, mem) =>
      let r := c.answer (.setAlloc m) (mem.world [])
      (r.1, (st, r.2.memory))
  | .allocPage, (st, mem) =>
      let r := c.answer .allocPage (mem.world [])
      (r.1, (st, r.2.memory))
  | .remoteRead page pa info, (st, mem) =>
      let r := c.answer (.remoteRead page pa info) (mem.world [])
      (r.1, (st, r.2.memory))
  | .postPageRead page pa info signaled, (st, mem) =>
      let r := c.answer (.postPageRead page pa info signaled) (mem.world [])
      (r.1, (st, r.2.memory))
  | .blockOnPageReads, (st, mem) =>
      ((c.answer .blockOnPageReads (mem.world [])).1, (st, mem))
  | .vmInsertPage m addr page, (st, mem) =>
      let r := c.answer (.vmInsertPage m addr page) (mem.world [])
      (r.1, (st, r.2.memory))
  | o, (st, mem) =>
      let r := serveCommand lib machine self env o st
      (r.1, (r.2, mem))

def ProcessMemory.touch (c : Reader Regs Rdma Page) (heaps : List (HeapDataStruct Regs Rdma))
    (mem : ProcessMemory Page) (va : Nat) : Option Page × ProcessMemory Page :=
  match mem.inserted va with
  | some page => (some page, mem)
  | none =>
      match (handlePageFault heaps va).run c.answer (mem.world heaps) with
      | (.returned (.page newPage), w) =>
          (w.filled newPage,
            { w.memory with inserted := Function.update w.inserted va (w.filled newPage) })
      | (_, w) => (none, w.memory)

/-!
## States and steps
-/

/-- A machine and a handle of its module. -/
abbrev Process := UInt64 × Nat

/-- A machine and a key of its registry. -/
abbrev HeapName := UInt64 × UInt64

/-- A machine and the address of one of its frames. -/
abbrev FrameAddr := UInt64 × Nat

structure Deployment (Regs Rdma Page : Type) (bufSize : Nat) where
  machines : Machines Regs Rdma bufSize
  frames : FrameAddr -> Page
  memory : Process -> ProcessMemory Page

inductive DeployAct (Regs Rdma Page : Type) where
  | openHandle (p : Process)
  | command (p : Process) (req : Request) (env : CallEnv Regs Rdma)
  | touch (p : Process) (n : Nat) (answer : Answers Regs Rdma)
  | store (p : Process) (n : Nat) (v : Page) (answer : Answers Regs Rdma)
  | write (frame : FrameAddr) (v : Page)
  | closeHandle (p : Process) (env : CallEnv Regs Rdma)

def heapCovers (task : Producer.Task Regs) (heapBase n : Nat) : Bool :=
  (heapRun heapBase task.mm.vmas).any fun vma => decide (vma.Covers (n * pageSize))

def capturedMapping (machine : UInt64) (task : Producer.Task Regs) (heapBase : Nat) :
    Mapping Nat FrameAddr where
  covers := heapCovers task heapBase
  target n :=
    if heapCovers task heapBase n = true ∧ 0 < (task.mm.pte (n * pageSize)).toNat then
      some (machine, (task.mm.pte (n * pageSize)).toNat)
    else none

abbrev DeployObs (Page : Type) :=
  SharedObs HeapName Process Nat Page (Mapping Nat FrameAddr × (Nat -> Option Page))

namespace Deployment

variable (s : Deployment Regs Rdma Page bufSize)

def init (pool : Pool bufSize) (frames : FrameAddr -> Page) : Deployment Regs Rdma Page bufSize where
  machines _ := ModuleState.init pool
  frames := frames
  memory _ := ProcessMemory.empty

def Opened (p : Process) : Prop := ((s.machines p.1).handlers p.2).isSome

instance (p : Process) : Decidable (s.Opened p) := inferInstanceAs (Decidable (_ = true))

def heaps (p : Process) : List (HeapDataStruct Regs Rdma) :=
  (((s.machines p.1).handlers p.2).map DmergeSyscallHandler.publicHeaps).getD []

/-- What surrounds a process that reads pages of other machines; `located` tells the
machine of an RDMA target. -/
def reader (located : Rdma -> UInt64) (answer : Answers Regs Rdma) : Reader Regs Rdma Page where
  accessible machineInfo := (answer (.accessInfoNew machineInfo)).isSome
  remote page := s.frames (located page.2, page.1)
  other := answer

/-- A command, run to its end. -/
def runCommand (lib : KernelLib Regs Rdma) (located : Rdma -> UInt64) (p : Process)
    (req : Request) (env : CallEnv Regs Rdma) :
    Outcome Int × (Session Regs Rdma bufSize × ProcessMemory Page) :=
  (ioctrl lib req).run (serveProcess lib p.1 p.2 env (s.reader located env.caller.answer))
    ({ machines := s.machines, request := none, read := none }, s.memory p)

def captured (p : Process) (task : Producer.Task Regs) (heapBase : Nat) :
    Mapping Nat FrameAddr × (Nat -> Option Page) :=
  (capturedMapping p.1 task heapBase, (capturedMapping p.1 task heapBase).contents s.frames)

/-- What a command tells: the hint of the process, with its heap if that is registered
now, or that a heap was pulled. -/
def tells (p : Process) (req : Request) (env : CallEnv Regs Rdma) :
    Outcome Int -> List (DeployObs Page)
  | .returned result =>
      match req with
      | .register heapBase =>
          [.named p (p.1, (Int64.ofInt result).toUInt64)
            (if (s.machines p.1).hintOf p.2 = none then
              some (s.captured p env.caller.task heapBase.toNat)
            else none)]
      | .pull heapHint machineId _ =>
          if result = 0 then [.joined p (machineId.toUInt64, heapHint.toUInt64)] else []
      | .registerRemote _ _ => []
  | .panicked _ => []

def touch (located : Rdma -> UInt64) (p : Process) (n : Nat) (answer : Answers Regs Rdma) :
    Option Page × ProcessMemory Page :=
  (s.memory p).touch (s.reader located answer) (s.heaps p) (n * pageSize)

/-- One step.  A registration is given a free buffer. -/
def step (lib : KernelLib Regs Rdma) (located : Rdma -> UInt64) :
    DeployAct Regs Rdma Page ->
      Option (Deployment Regs Rdma Page bufSize × List (DeployObs Page))
  | .openHandle p =>
      if s.Opened p then none
      else
        some
          ({ s with
              machines := Function.update s.machines p.1
                ((s.machines p.1).setHandler p.2 (some DmergeSyscallHandler.default))
              memory := Function.update s.memory p ProcessMemory.empty }, [])
  | .command p req env =>
      if s.Opened p ∧ env.Fits lib ∧ (s.machines p.1).Free env.caller.buf then
        let r := s.runCommand lib located p req env
        some
          ({ s with
              machines := r.2.1.machines
              memory := Function.update s.memory p r.2.2 }, s.tells p req env r.1)
      else none
  | .touch p n answer =>
      if s.Opened p then
        let r := s.touch located p n answer
        some ({ s with memory := Function.update s.memory p r.2 }, [.read p n r.1])
      else none
  | .store p n v answer =>
      let r := s.touch located p n answer
      if s.Opened p ∧ r.1.isSome then
        some
          ({ s with
              memory := Function.update s.memory p
                { r.2 with
                    inserted := Function.update r.2.inserted (n * pageSize) (some v) } }, [])
      else none
  | .write frame v => some ({ s with frames := Function.update s.frames frame v }, [])
  | .closeHandle p env =>
      if s.Opened p then
        some
          ({ s with
              machines := Function.update s.machines p.1
                ((runAlone lib p.2 env.caller dropHandler
                  (s.machines p.1)).2.1.setHandler p.2 none) }, [])
      else none

end Deployment
end Kernel
end Dmerge
