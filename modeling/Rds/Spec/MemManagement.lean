import Rds.Lib.DList
import Rds.Spec.Globvar

/-!
# The collector (`mem_management.c`)

Pointers and sockets are kept in one doubly linked list of items. A call carries what the
system answers to it: the block or the descriptor it asked for, and the block for the new item.
Blocks and descriptors are those of a 64-bit little-endian machine.
-/

namespace Rds

/-- An address, as its lower and its upper half. -/
structure Address where
  lo : UInt32
  hi : UInt32
  deriving DecidableEq, Repr

/-- `NULL` -/
def Address.null : Address := ⟨0, 0⟩

/-- A descriptor: an `int`, bit by bit. -/
abbrev Fd := UInt32

/-- `union al_dat`, read as a pointer. -/
structure AllocData where
  ptr : Address
  deriving DecidableEq, Repr

namespace AllocData

/-- The member `sock_fd` lies over the lower half. -/
def sockFd (d : AllocData) : Fd := d.ptr.lo

/-- Storing `sock_fd` leaves the upper half as it was. -/
def setSockFd (d : AllocData) (fd : Fd) : AllocData := ⟨{ d.ptr with lo := fd }⟩

end AllocData

/-- `enum ALLOC_TYPES` -/
inductive AllocType
  | socket
  | ptr
  deriving DecidableEq, Repr

/-- An item, without its links. -/
structure SsdsGcItem where
  data : AllocData
  type : AllocType
  deriving DecidableEq, Repr

/-- The collector and the two counters of the program. -/
structure SsdsGc where
  heap : DList.Heap Address SsdsGcItem
  top : Option Address
  numItems : ℤ
  allocated : ℤ
  deriving DecidableEq, Repr

/-- `ssds_gc_init` -/
def ssdsGcInit : SsdsGc := { heap := [], top := none, numItems := 0, allocated := 0 }

/-- Following a pointer to an item. -/
def derefItem (heap : DList.Heap Address SsdsGcItem) (a : Address) :
    Except Halt (DList.Cell Address SsdsGcItem) :=
  match heap.get a with
  | some c => .ok c
  | none => .error .crash

/-- `p->next = n` -/
def storeNext (heap : DList.Heap Address SsdsGcItem) (p : Address) (n : Option Address) :
    Except Halt (DList.Heap Address SsdsGcItem) := do
  let _ ← derefItem heap p
  return heap.setNext p n

/-- `p->prev = n` -/
def storePrev (heap : DList.Heap Address SsdsGcItem) (p : Address) (n : Option Address) :
    Except Halt (DList.Heap Address SsdsGcItem) := do
  let _ ← derefItem heap p
  return heap.setPrev p n

/-! ## Cleaning up -/

/-- What a cleanup gives back. -/
inductive Release
  | close (fd : Fd)
  | free (ptr : Address)
  deriving DecidableEq, Repr

/-- The `switch` of `ssds_gc_cleanup`. -/
def SsdsGcItem.release (item : SsdsGcItem) : List Release :=
  match item.type with
  | .socket => [.close item.data.sockFd]
  | .ptr => if item.data.ptr ≠ .null then [.free item.data.ptr] else []

/-- The loop of `ssds_gc_cleanup`, `n` turns at most. -/
def cleanupLoop : ℕ → DList.Heap Address SsdsGcItem → Option Address →
    Except Halt (List Release × DList.Heap Address SsdsGcItem)
  | _, heap, none => .ok ([], heap)
  | 0, _, some _ => .error .fuel
  | n + 1, heap, some item => do
    let c ← derefItem heap item
    let (released, heap) ← cleanupLoop n (heap.free item) c.next
    return (c.val.release ++ released, heap)

/-- `ssds_gc_cleanup`: what it gives back, and the items left over. A walk longer than the
heap goes in circles. -/
def ssdsGcCleanup (gc : SsdsGc) : Except Halt (List Release × DList.Heap Address SsdsGcItem) :=
  cleanupLoop gc.heap.length gc.heap gc.top

/-! ## Items -/

/-- The test of `ssds_gc_search`: the item's type is not looked at. -/
def SsdsGcItem.matches (item : SsdsGcItem) (data : AllocData) : AllocType → Bool
  | .socket => item.data.sockFd = data.sockFd
  | .ptr => item.data.ptr = data.ptr

/-- The loop of `ssds_gc_search`, `n` turns at most. -/
def searchLoop (heap : DList.Heap Address SsdsGcItem) (data : AllocData) (type : AllocType) :
    ℕ → Option Address → Except Halt (Option Address)
  | _, none => .ok none
  | 0, some _ => .error .fuel
  | n + 1, some tmp => do
    let c ← derefItem heap tmp
    if c.val.matches data type then return some tmp else searchLoop heap data type n c.next

/-- `ssds_gc_search` -/
def ssdsGcSearch (gc : SsdsGc) (data : AllocData) (type : AllocType) :
    Except Halt (Option Address) :=
  searchLoop gc.heap data type gc.heap.length gc.top

/-- `ssds_gc_remove` -/
def ssdsGcRemove (gc : SsdsGc) (data : AllocData) (type : AllocType) : Except Halt SsdsGc := do
  match ← ssdsGcSearch gc data type with
  | none => return gc
  | some item =>
    let c ← derefItem gc.heap item
    match c.next, c.prev with
    | none, none => return { gc with top := none, heap := gc.heap.free item }
    | none, some p =>
      let heap ← storeNext gc.heap p none
      return { gc with heap := heap.free item }
    | some n, none =>
      let heap ← storePrev gc.heap n none
      return { gc with top := some n, heap := heap.free item }
    | some n, some p =>
      let heap ← storeNext gc.heap p (some n)
      let heap ← storePrev heap n (some p)
      return { gc with heap := heap.free item }

/-- What `malloc` gives for a new item: `NULL`, or a block and what its `data` happens to hold. -/
abbrev ItemBlock := Option (Address × AllocData)

/-- The program goes on, or it has cleaned up and exited. -/
inductive GcState
  | running (gc : SsdsGc)
  | exited (released : List Release)
  deriving DecidableEq, Repr

/-- The item `ssds_gc_push` makes in a block that held `junk`. -/
def newItem (data : AllocData) (type : AllocType) (junk : AllocData) : SsdsGcItem :=
  match type with
  | .socket => { data := junk.setSockFd data.sockFd, type }
  | .ptr => { data := { ptr := data.ptr }, type }

/-- `ssds_gc_push` -/
def ssdsGcPush (gc : SsdsGc) (data : AllocData) (type : AllocType) (block : ItemBlock) :
    Except Halt GcState :=
  match block with
  | none => do
    let (released, _) ← ssdsGcCleanup gc
    return .exited released
  | some (newAddr, junk) =>
    let heap := gc.heap.put newAddr { val := newItem data type junk, next := none, prev := none }
    match gc.top with
    | none => return .running { gc with heap, top := some newAddr }
    | some top => do
      let heap ← storePrev heap top (some newAddr)
      let heap ← storeNext heap newAddr (some top)
      return .running { gc with heap, top := some newAddr }

/-- The union around a pointer. -/
def AllocData.ofPtr (ptr : Address) : AllocData := ⟨ptr⟩

/-- The union around a descriptor; nothing reads its upper half. -/
def AllocData.ofSocket (fd : Fd) : AllocData := ⟨⟨fd, 0⟩⟩

/-- `ssds_gc_push_ptr` -/
def ssdsGcPushPtr (gc : SsdsGc) (ptr : Address) (block : ItemBlock) : Except Halt GcState :=
  ssdsGcPush gc (.ofPtr ptr) .ptr block

/-- `ssds_gc_push_socket` -/
def ssdsGcPushSocket (gc : SsdsGc) (fd : Fd) (block : ItemBlock) : Except Halt GcState :=
  ssdsGcPush gc (.ofSocket fd) .socket block

/-- `ssds_gc_remove_ptr` -/
def ssdsGcRemovePtr (gc : SsdsGc) (ptr : Address) : Except Halt SsdsGc :=
  ssdsGcRemove gc (.ofPtr ptr) .ptr

/-- `ssds_gc_remove_socket` -/
def ssdsGcRemoveSocket (gc : SsdsGc) (fd : Fd) : Except Halt SsdsGc :=
  ssdsGcRemove gc (.ofSocket fd) .socket

/-! ## The functions the program calls -/

/-- `num_items += n` -/
def SsdsGc.count (gc : SsdsGc) (n : ℤ) : SsdsGc := { gc with numItems := gc.numItems + n }

/-- `allocated += n` -/
def SsdsGc.sized (gc : SsdsGc) (n : ℤ) : SsdsGc := { gc with allocated := gc.allocated + n }

/-- `ssds_free` -/
def ssdsFree (gc : SsdsGc) (ptr : Address) : Except Halt GcState := do
  return .running (← ssdsGcRemovePtr (gc.count (-1)) ptr)

/-- `ssds_close` -/
def ssdsClose (gc : SsdsGc) (fd : Fd) : Except Halt GcState := do
  return .running (← ssdsGcRemoveSocket (gc.count (-1)) fd)

/-- `ssds_realloc`; `newPtr` is what `realloc` returns. -/
def ssdsGcRealloc (gc : SsdsGc) (oldPtr : Address) (size : ℤ) (newPtr : Option Address)
    (block : ItemBlock) : Except Halt GcState :=
  let gc := gc.sized size
  match newPtr with
  | none => return .running gc
  | some newPtr =>
    if newPtr ≠ oldPtr then do
      let gc ← ssdsGcRemovePtr gc oldPtr
      ssdsGcPushPtr gc newPtr block
    else return .running gc

/-- `ssds_malloc` -/
def ssdsMalloc (gc : SsdsGc) (size : ℤ) (newPtr : Option Address) (block : ItemBlock) :
    Except Halt GcState :=
  let gc := (gc.count 1).sized size
  match newPtr with
  | none => return .running gc
  | some newPtr => ssdsGcPushPtr gc newPtr block

/-- `ssds_calloc` -/
def ssdsCalloc (gc : SsdsGc) (nItems size : ℤ) (newPtr : Option Address) (block : ItemBlock) :
    Except Halt GcState :=
  let gc := (gc.count 1).sized (nItems * size)
  match newPtr with
  | none => return .running gc
  | some newPtr => ssdsGcPushPtr gc newPtr block

/-- `ssds_socket`; `newSocket` is `none` for a negative value. -/
def ssdsSocket (gc : SsdsGc) (newSocket : Option Fd) (block : ItemBlock) : Except Halt GcState :=
  let gc := gc.count 1
  match newSocket with
  | none => return .running gc
  | some newSocket => ssdsGcPushSocket gc newSocket block

/-- `ssds_accept` -/
def ssdsAccept (gc : SsdsGc) (newSocket : Option Fd) (block : ItemBlock) : Except Halt GcState :=
  ssdsSocket gc newSocket block

/-- A call of the collector, with the answers of the system. -/
inductive GcCall
  | malloc (size : ℤ) (newPtr : Option Address) (block : ItemBlock)
  | calloc (nItems size : ℤ) (newPtr : Option Address) (block : ItemBlock)
  | realloc (oldPtr : Address) (size : ℤ) (newPtr : Option Address) (block : ItemBlock)
  | free (ptr : Address)
  | socket (newSocket : Option Fd) (block : ItemBlock)
  | accept (newSocket : Option Fd) (block : ItemBlock)
  | close (fd : Fd)
  | push (data : AllocData) (type : AllocType) (block : ItemBlock)
  | remove (data : AllocData) (type : AllocType)
  deriving DecidableEq, Repr

/-- One call. -/
def GcCall.run (gc : SsdsGc) : GcCall → Except Halt GcState
  | .malloc size newPtr block => ssdsMalloc gc size newPtr block
  | .calloc nItems size newPtr block => ssdsCalloc gc nItems size newPtr block
  | .realloc oldPtr size newPtr block => ssdsGcRealloc gc oldPtr size newPtr block
  | .free ptr => ssdsFree gc ptr
  | .socket newSocket block => ssdsSocket gc newSocket block
  | .accept newSocket block => ssdsAccept gc newSocket block
  | .close fd => ssdsClose gc fd
  | .push data type block => ssdsGcPush gc data type block
  | .remove data type => return .running (← ssdsGcRemove gc data type)

/-- One call of a program, unless it has exited or halted. -/
def gcStep (st : Except Halt GcState) (call : GcCall) : Except Halt GcState := do
  match ← st with
  | .running gc => call.run gc
  | .exited released => return .exited released

/-- A run. -/
def gcRun (calls : List GcCall) : Except Halt GcState :=
  calls.foldl gcStep (.ok (.running ssdsGcInit))

end Rds
