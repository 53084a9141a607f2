import Rds.Spec.Globvar
import Mathlib.Tactic.Ring

/-!
# Receiving (`network_util.c`)

`ssds_read` in the build without SSL, and the two receive loops over it. A socket
is what its reader will still get out of it: the results of the reads to come, and
whether the peer has closed, after which every read returns 0.
-/

namespace Rds

/-- Max length of one read call. -/
def maxInputLen : ℕ := 2000

/-- Initial length of buffer. -/
def buffSize : ℕ := 2000

/-- What one `ssds_read` of up to `MAX_INPUT_LEN` bytes brings. -/
inductive ReadRes
  | err
  | got (bs : List Byte) (le : bs.length ≤ maxInputLen)
  deriving DecidableEq

namespace ReadRes

/-- The number `ssds_read` returns. -/
def ret : ReadRes → ℤ
  | err => -1
  | got bs _ => bs.length

/-- The bytes it stores. -/
def bytes : ReadRes → List Byte
  | err => []
  | got bs _ => bs

/-- The read at the end of the stream. -/
def eof : ReadRes := got [] (Nat.zero_le _)

/-- The test that ends a receive loop. -/
def Short (r : ReadRes) : Prop := r.ret < maxInputLen

instance (r : ReadRes) : Decidable r.Short := inferInstanceAs (Decidable (_ < _))

/-- The block the read went to: zeroed, then filled from the front. -/
def block (r : ReadRes) : List Byte := r.bytes ++ List.replicate (maxInputLen - r.bytes.length) 0

end ReadRes

/-- The bytes of some reads, in order. -/
def bytesOf (rs : List ReadRes) : List Byte := rs.flatMap ReadRes.bytes

/-- A socket as its reader sees it. -/
structure Sock where
  reads : List ReadRes
  closed : Bool := false

/-- One read. With nothing to come from an open peer it waits. -/
def ssdsRead (s : Sock) : Except Halt (ReadRes × Sock) :=
  match s.reads with
  | r :: rs => .ok (r, { s with reads := rs })
  | [] => if s.closed then .ok (.eof, s) else .error .blocked

/-- The text of a NUL-terminated buffer. -/
def cstr (b : List Byte) : List Byte := b.takeWhile (· ≠ 0)

/-- `ssds_realloc(p, size)`, `size` an `int`: a product that overflows it asks for an
impossible size and gets `NULL`, any other request is granted. The bytes gained are
unspecified, zero here; the loops overwrite them at once. -/
def ssdsRealloc (p : Option (List Byte)) (size : ℕ) : Option (List Byte) :=
  if size < 2 ^ 31 then
    some ((p.getD []).take size ++ List.replicate (size - (p.getD []).length) 0)
  else none

/-- `memcpy(dst + off, src, length of src)`. -/
def memcpy (dst : Option (List Byte)) (off : ℕ) (src : List Byte) : Except Halt (List Byte) :=
  match dst with
  | none => .error .crash
  | some b =>
    if off + src.length ≤ b.length then
      .ok (b.take off ++ src ++ b.drop (off + src.length))
    else .error .crash

/-- The variables of the receive loops. -/
structure RecvLoop where
  buffer : Option (List Byte)
  readCount : ℕ
  buffSz : ℕ
  retVal : ℤ

/-- The part of a turn before its read: `read_count++` and the reallocation. -/
def RecvLoop.grow (m : RecvLoop) : RecvLoop :=
  if (m.readCount + 1) * maxInputLen ≥ m.buffSz * buffSize then
    { m with readCount := m.readCount + 1, buffSz := m.buffSz + 1,
             buffer := ssdsRealloc m.buffer ((m.buffSz + 1) * buffSize) }
  else { m with readCount := m.readCount + 1 }

/-- The part of a turn after its read: `retVal += ret` and the copy. -/
def RecvLoop.store (m : RecvLoop) (r : ReadRes) : Except Halt RecvLoop := do
  let b ← memcpy m.buffer (m.readCount * maxInputLen) r.block
  return { m with buffer := some b, retVal := m.retVal + r.ret }

/-- The `do … while(!(ret < MAX_INPUT_LEN))` loop of `sock_recv` and `sock_solv_recv`. -/
def recvLoop (closed : Bool) : List ReadRes → RecvLoop → Except Halt (RecvLoop × List ReadRes)
  | [], m =>
    -- at the end of a closed stream the read returns 0, which ends the loop
    if closed then do
      let m ← m.grow.store .eof
      return (m, [])
    else .error .blocked
  | r :: rs, m => do
    let m ← m.grow.store r
    if r.Short then return (m, rs) else recvLoop closed rs m

/-- The loop as it starts, after a first read of full length. -/
def RecvLoop.init (r : ReadRes) : RecvLoop := ⟨some r.block, 0, 1, r.ret⟩

/-- `sock_recv`: `none` is `NULL`. -/
def sockRecv (s : Sock) : Except Halt (Option (List Byte) × Sock) := do
  let (r, s) ← ssdsRead s
  match r with
  | .err => return (none, s)
  | .got bs _ =>
    if bs.length = maxInputLen then do
      let (m, rs) ← recvLoop s.closed s.reads (.init r)
      return (m.buffer, { s with reads := rs })
    else return (some r.block, s)

/-- `sock_solv_recv`: the count it returns and `*buffer`, which is freed (`none`) when
the count is -1. -/
def sockSolvRecv (s : Sock) : Except Halt ((ℤ × Option (List Byte)) × Sock) := do
  let (r, s) ← ssdsRead s
  match r with
  | .err => return ((-1, none), s)
  | .got bs _ =>
    if bs.length = maxInputLen then do
      let (m, rs) ← recvLoop s.closed s.reads (.init r)
      return ((m.retVal, m.buffer), { s with reads := rs })
    else return ((r.ret, some r.block), s)

end Rds
