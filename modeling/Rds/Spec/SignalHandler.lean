import Rds.Lib.Interrupt
import Rds.Spec.MemManagement
import Mathlib.Data.Finset.Basic

/-!
# Signals (`mem_management.c`, step by step)

`ssds_signal_handler` cleans up and exits, wherever the program is at that moment. The functions
of the collector are rows of loads and stores here, and a signal can come between any two of them.
A call of the system's (`malloc`, `free`, `accept`, …) is one step. Beside the collector stands
what the system has given to the program and not got back.
-/

namespace Rds

open Interrupt

/-- `global_gc`: it points to the collector, or the collector has been freed, or it is `NULL`. -/
inductive GcHeader
  | live
  | freed
  | null
  deriving DecidableEq, Repr

/-- The process: the collector, the blocks it has from `malloc`, and its open sockets. -/
structure Process where
  gc : SsdsGc
  header : GcHeader
  ptrs : Finset Address
  socks : Finset Fd
  deriving DecidableEq

/-- A process that ends before its program does. -/
inductive Stop
  | halt (h : Halt)
  | exit
  deriving DecidableEq, Repr

/-- Part of the program, step by step. -/
abbrev Steps (α : Type) := Prog Stop Process α

/-- Something that is only looked at. -/
def look {α : Type} (f : Process → Except Halt α) : Steps α :=
  Prog.read fun p => (f p).mapError .halt

/-- One step. -/
def act (f : Process → Except Halt Process) : Steps Unit :=
  Prog.step fun p => (f p).mapError .halt |>.map fun p => ((), p)

/-! ## Loads and stores -/

/-- Following `global_gc`. -/
def Process.follow (p : Process) : Except Halt SsdsGc :=
  if p.header = .live then .ok p.gc else .error .crash

/-- `global_gc->top` -/
def loadTop : Steps (Option Address) := look fun p => do return (← p.follow).top

/-- `global_gc->top = top` -/
def storeTop (top : Option Address) : Steps Unit :=
  act fun p => do
    let gc ← p.follow
    return { p with gc := { gc with top } }

/-- Other items. -/
def Process.setHeap (p : Process) (heap : DList.Heap Address SsdsGcItem) : Process :=
  { p with gc := { p.gc with heap } }

def loadItem (a : Address) : Steps (DList.Cell Address SsdsGcItem) :=
  look fun p => derefItem p.gc.heap a

/-- `a->next = n` -/
def storeItemNext (a : Address) (n : Option Address) : Steps Unit :=
  act fun p => (storeNext p.gc.heap a n).map p.setHeap

/-- `a->prev = n` -/
def storeItemPrev (a : Address) (n : Option Address) : Steps Unit :=
  act fun p => (storePrev p.gc.heap a n).map p.setHeap

/-- A new item, filled before anything points to it. -/
def mallocItem (a : Address) (c : DList.Cell Address SsdsGcItem) : Steps Unit :=
  act fun p => .ok (p.setHeap (p.gc.heap.put a c))

/-- `free` of an item -/
def freeItem (a : Address) : Steps Unit :=
  act fun p => (derefItem p.gc.heap a).map fun _ => p.setHeap (p.gc.heap.free a)

/-- `num_items += n` -/
def addItems (n : ℤ) : Steps Unit := act fun p => .ok { p with gc := p.gc.count n }

/-- `allocated += n` -/
def addAllocated (n : ℤ) : Steps Unit := act fun p => .ok { p with gc := p.gc.sized n }

/-! ## The system -/

/-- `malloc` and `calloc`: a block. -/
def sysMalloc (ptr : Address) : Steps Unit := act fun p => .ok { p with ptrs := insert ptr p.ptrs }

/-- `free`: nothing happens to `NULL`, and a block that is not in use is freed twice. -/
def sysFree (ptr : Address) : Steps Unit :=
  act fun p =>
    if ptr = .null then .ok p
    else if ptr ∈ p.ptrs then .ok { p with ptrs := p.ptrs.erase ptr }
    else .error .crash

/-- `realloc`: the old block is given back and the new one handed out at once. -/
def sysRealloc (oldPtr newPtr : Address) : Steps Unit :=
  act fun p =>
    if oldPtr = .null ∨ oldPtr ∈ p.ptrs then
      .ok { p with ptrs := insert newPtr (p.ptrs.erase oldPtr) }
    else .error .crash

/-- `socket` and `accept`: a descriptor. -/
def sysOpen (fd : Fd) : Steps Unit := act fun p => .ok { p with socks := insert fd p.socks }

/-- `close`; a descriptor that is not open is refused. -/
def sysClose (fd : Fd) : Steps Unit := act fun p => .ok { p with socks := p.socks.erase fd }

/-- `exit` -/
def sysExit : Steps Unit := Prog.step fun _ => .error .exit

/-! ## Cleaning up -/

/-- The `switch` of `ssds_gc_cleanup`. -/
def releaseSteps (item : SsdsGcItem) : Steps Unit :=
  match item.type with
  | .socket => sysClose item.data.sockFd
  | .ptr => if item.data.ptr ≠ .null then sysFree item.data.ptr else pure ()

/-- The loop of `ssds_gc_cleanup`, `n` turns at most. -/
def cleanupSteps : ℕ → Option Address → Steps Unit
  | _, none => pure ()
  | 0, some _ => look fun _ => .error .fuel
  | n + 1, some item => do
    let c ← loadItem item
    releaseSteps c.val
    freeItem item
    cleanupSteps n c.next

/-- `free(global_gc)` -/
def freeHeader : Steps Unit := act fun p => p.follow.map fun _ => { p with header := .freed }

/-- `global_gc = NULL` -/
def clearHeader : Steps Unit := act fun p => .ok { p with header := .null }

/-- `allocated = 0; num_items = 0` -/
def clearCounters : Steps Unit :=
  act fun p => .ok { p with gc := { p.gc with numItems := 0, allocated := 0 } }

/-- As many turns as there are items; a walk that takes more goes in circles. -/
def turns : Steps ℕ := look fun p => .ok p.gc.heap.length

/-- `ssds_gc_cleanup` -/
def ssdsGcCleanupSteps : Steps Unit := do
  let top ← loadTop
  let n ← turns
  cleanupSteps n top
  freeHeader
  clearHeader
  clearCounters

/-- `ssds_signal_handler`, up to its `exit`. -/
def ssdsSignalHandler : Steps Unit := ssdsGcCleanupSteps

/-! ## Items -/

/-- What `ssds_gc_remove` does to the neighbours of an item. -/
def unlinkSteps (c : DList.Cell Address SsdsGcItem) : Steps Unit :=
  match c.next, c.prev with
  | none, none => storeTop none
  | none, some p => storeItemNext p none
  | some n, none => do
    storeItemPrev n none
    storeTop (some n)
  | some n, some p => do
    storeItemNext p (some n)
    storeItemPrev n (some p)

/-- `ssds_gc_remove`. The search changes nothing. -/
def ssdsGcRemoveSteps (data : AllocData) (type : AllocType) : Steps Unit := do
  match ← look fun p => do ssdsGcSearch (← p.follow) data type with
  | none => return
  | some item =>
    let c ← loadItem item
    unlinkSteps c
    freeItem item

/-- The stores of `ssds_gc_push` once the new item is filled. -/
def linkSteps (newAddr : Address) : Steps Unit := do
  match ← loadTop with
  | none => storeTop (some newAddr)
  | some top =>
    storeItemPrev top (some newAddr)
    storeItemNext newAddr (some top)
    storeTop (some newAddr)

/-- `ssds_gc_push` -/
def ssdsGcPushSteps (data : AllocData) (type : AllocType) (block : ItemBlock) : Steps Unit :=
  match block with
  | none => do
    ssdsGcCleanupSteps
    sysExit
  | some (newAddr, junk) => do
    mallocItem newAddr { val := newItem data type junk, next := none, prev := none }
    linkSteps newAddr

/-! ## The functions the program calls -/

/-- `ssds_malloc` and `ssds_calloc` behind the counters -/
def mallocSteps (newPtr : Option Address) (block : ItemBlock) : Steps Unit :=
  match newPtr with
  | none => pure ()
  | some newPtr => do
    sysMalloc newPtr
    ssdsGcPushSteps (.ofPtr newPtr) .ptr block

/-- `ssds_realloc` behind the counter -/
def reallocSteps (oldPtr : Address) (newPtr : Option Address) (block : ItemBlock) : Steps Unit :=
  match newPtr with
  | none => pure ()
  | some newPtr => do
    sysRealloc oldPtr newPtr
    if newPtr ≠ oldPtr then
      ssdsGcRemoveSteps (.ofPtr oldPtr) .ptr
      ssdsGcPushSteps (.ofPtr newPtr) .ptr block

/-- `ssds_socket` and `ssds_accept` behind the counter -/
def socketSteps (newSocket : Option Fd) (block : ItemBlock) : Steps Unit :=
  match newSocket with
  | none => pure ()
  | some newSocket => do
    sysOpen newSocket
    ssdsGcPushSteps (.ofSocket newSocket) .socket block

/-- A call of the collector, step by step. -/
def GcCall.steps : GcCall → Steps Unit
  | .malloc size newPtr block => do
    addItems 1
    addAllocated size
    mallocSteps newPtr block
  | .calloc nItems size newPtr block => do
    addItems 1
    addAllocated (nItems * size)
    mallocSteps newPtr block
  | .realloc oldPtr size newPtr block => do
    addAllocated size
    reallocSteps oldPtr newPtr block
  | .free ptr => do
    addItems (-1)
    ssdsGcRemoveSteps (.ofPtr ptr) .ptr
    sysFree ptr
  | .socket newSocket block => do
    addItems 1
    socketSteps newSocket block
  | .accept newSocket block => do
    addItems 1
    socketSteps newSocket block
  | .close fd => do
    addItems (-1)
    ssdsGcRemoveSteps (.ofSocket fd) .socket
    sysClose fd
  | .push data type block => ssdsGcPushSteps data type block
  | .remove data type => ssdsGcRemoveSteps data type

/-- A program behind `ssds_gc_init`, as the calls it makes. -/
def Process.init : Process := { gc := ssdsGcInit, header := .live, ptrs := ∅, socks := ∅ }

end Rds
