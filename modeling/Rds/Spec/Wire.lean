import Rds.Spec.System
import Mathlib.Data.List.Basic

/-!
# The connection as bytes

A session as in `Link`, with both ends of the connection as sockets: the messages are printed and
written, the bytes cut into reads on their way, received and parsed. The server runs until it waits
for more.
-/

namespace Rds

/-- In which reads the bytes arrive that one side has written while the other waited, `k` messages
being before them: all of them, in order, and no read is empty or fails. Where one message ends and
the next or a file begins makes no difference. -/
structure Cut where
  reads : ℕ → List Byte → List ReadRes
  bytes : ∀ k bs, bytesOf (reads k bs) = bs
  delivers : ∀ k bs, ∀ r ∈ reads k bs, 0 < r.bytes.length

/-- json-glib's generator, how what the client and the server write is cut, and whether the client,
`k` messages into the session, still writes when the server has closed its end. -/
structure Wire where
  print : Json → List Byte
  up : Cut
  down : Cut
  late : ℕ → Bool

/-- The bytes of messages, each with the data behind it. -/
def Wire.bytes (w : Wire) (ps : List (Json × List Byte)) : List Byte :=
  ps.flatMap fun p => w.print p.1 ++ p.2

section

variable (env : Env)

/-- The message comes as one and is read back. -/
def AsOne (m : Json) (rs : List ReadRes) : Prop :=
  (∃ g x, rs = g ++ [x] ∧ (∀ r ∈ g, ¬ r.Short) ∧ x.Short ∧ (g.length + 1) * buffSize < 2 ^ 31) ∧
    env.load (cstr (bytesOf rs)) = some (some m)

/-- Each message comes as one, and the data behind it in reads of their own. -/
def Whole : List (Json × List Byte) → List ReadRes → Prop
  | [], rs => rs = []
  | p :: ps, rs => ∃ h ds rest, rs = h ++ ds ++ rest ∧ AsOne env p.1 h ∧ bytesOf ds = p.2 ∧
      Whole ps rest

instance {m : Json} {rs : List ReadRes} : Decidable (AsOne env m rs) :=
  have : Decidable (∃ g x, rs = g ++ [x] ∧ (∀ r ∈ g, ¬ r.Short) ∧ x.Short ∧
      (g.length + 1) * buffSize < 2 ^ 31) :=
    decidable_of_iff ((∀ r ∈ rs.dropLast, ¬ r.Short) ∧ (∃ x ∈ rs.getLast?, x.Short) ∧
      rs.length * buffSize < 2 ^ 31) (by
        constructor
        · rintro ⟨hg, ⟨x, hx, hshort⟩, hlen⟩
          have hrs := List.dropLast_append_getLast? x hx
          refine ⟨_, x, hrs.symm, hg, hshort, ?_⟩
          rwa [← hrs, List.length_append] at hlen
        · rintro ⟨g, x, rfl, hg, hshort, hlen⟩
          simpa [List.dropLast_concat] using ⟨hg, hshort, hlen⟩)
  inferInstanceAs (Decidable (_ ∧ _))

/-- The reads of the message and of the data are found among the splits of all reads. -/
instance decidableWhole : (ps : List (Json × List Byte)) → (rs : List ReadRes) →
    Decidable (Whole env ps rs)
  | [], rs => inferInstanceAs (Decidable (rs = []))
  | p :: ps, rs =>
    have : ∀ rs, Decidable (Whole env ps rs) := decidableWhole ps
    decidable_of_iff (∃ i < rs.length + 1, ∃ j < rs.length + 1, AsOne env p.1 (rs.take i) ∧
      bytesOf ((rs.drop i).take j) = p.2 ∧ Whole env ps ((rs.drop i).drop j)) (by
        constructor
        · rintro ⟨i, -, j, -, hone, hb, hrest⟩
          refine ⟨_, _, _, ?_, hone, hb, hrest⟩
          rw [List.append_assoc, List.take_append_drop, List.take_append_drop]
        · rintro ⟨h, ds, rest, rfl, hone, hb, hrest⟩
          refine ⟨h.length, ?_, ds.length, ?_, ?_⟩
          · simp only [List.length_append]
            omega
          · simp only [List.length_append]
            omega
          · simpa [List.append_assoc] using ⟨hone, hb, hrest⟩)

end

/-- A session between two sockets: the server with its end of the connection, what the client has
written and the server not met yet, and the client's end; and for the record the reads that have
arrived at either end, and how many messages have. `intact` records whether every message came whole,
and nothing ended one of the two programs while it wrote or solved. -/
structure Duplex where
  server : Server
  packets : List (Json × List Byte)
  client : Sock
  arrived : List ReadRes
  returned : List ReadRes
  written : ℕ
  replied : ℕ
  ended : Bool
  halted : Bool
  intact : Bool

/-- The loop of `ssds_server_accept_connection`, up to where it waits for the next message:
whether the session has ended. -/
def serveAll (env : Env) (fuel : ℕ) : ℕ → Server → Except Halt (Bool × Server)
  | 0, _ => .error .fuel
  | turns + 1, sv => do
    if sv.sock.reads = [] then return (false, sv)
    else
      let (status, sv) ← ssdsServerProcess env fuel sv
      if status ≠ .ok ∨ sv.clientEnd then return (true, sv) else serveAll env fuel turns sv

namespace Duplex

/-- `accept` -/
def accept (sv : Server) : Duplex where
  server := { sv with sock := ⟨[], false⟩, clientEnd := false, sent := [] }
  packets := []
  client := ⟨[], false⟩
  arrived := []
  returned := []
  written := 0
  replied := 0
  ended := false
  halted := false
  intact := true

/-- Data goes behind the last message. The client writes none without one. -/
def behind (bs : List Byte) : List (Json × List Byte) → List (Json × List Byte)
  | [] => []
  | [p] => [(p.1, p.2 ++ bs)]
  | p :: ps => p :: behind bs ps

variable (w : Wire) (env : Env) (fuel : ℕ)

/-- The reads of what the client has written and the server not met yet. -/
def coming (d : Duplex) : List ReadRes := w.up.reads d.written (w.bytes d.packets)

/-- They arrive at the server. -/
def arrive (d : Duplex) : Duplex :=
  { d with
    server := { d.server with
      sock := { d.server.sock with reads := d.server.sock.reads ++ d.coming w } }
    packets := []
    arrived := d.arrived ++ d.coming w
    written := d.written + d.packets.length
    intact := d.intact && Whole env d.packets (d.coming w) }

/-- The server has run: its replies arrive, and the end of the session. -/
def ran (ended : Bool) (sv : Server) (d : Duplex) : Duplex :=
  let replies := sv.sent.map fun r => (r, [])
  let rs := w.down.reads d.replied (w.bytes replies)
  { d with
    server := { sv with sent := [] }
    client := ⟨d.client.reads ++ rs, ended⟩
    returned := d.returned ++ rs
    replied := d.replied + sv.sent.length
    ended
    intact := d.intact && Whole env replies rs }

/-- The client's `sock_recv`. -/
def take (d : Duplex) : Except Halt Delivery × Duplex :=
  match sockRecv d.client with
  | .error h => (.error h, d)
  | .ok (buf, sock) => (.ok (.ofBuffer env.load buf), { d with client := sock })

/-- The client has written to an end that is closed by then: nothing handles `SIGPIPE`. -/
def late (d : Duplex) (ended : Bool) : Bool := ended && !d.packets.isEmpty && w.late d.written

/-- What the client has written, and its `sock_recv`. With nothing there yet, the server runs
first. A server that does not come to an end of its turn may have sent replies before. -/
def recv (d : Duplex) : Except Halt Delivery × Duplex :=
  if d.client.reads = [] ∧ !d.ended then
    -- the client waits: the server meets what has been written
    let a := d.arrive w env
    match serveAll env fuel (a.server.sock.reads.length + 1) a.server with
    | .error h =>
      -- what was sent in this turn is lost here, so the session counts as torn
      (.error h, { a with halted := true, intact := false })
    | .ok (ended, sv) =>
      -- the server may have closed before the client had written all
      if d.late w ended then (.error .killed, { a.ran w env ended sv with intact := false })
      else (a.ran w env ended sv).take env
  else if d.late w d.ended then (.error .killed, { d with intact := false })
  else d.take env

/-- The connection as the client uses it. -/
def peer : Peer Duplex where
  write m d := { d with packets := d.packets ++ [(m, [])] }
  writeData bs d := { d with packets := behind bs d.packets }
  recv := recv w env fuel

end Duplex

/-! ## As an exchange of messages -/

/-- The reads behind the first message. -/
def behindMessage (rs : List ReadRes) : List ReadRes := (rs.dropWhile fun r => ¬ r.Short).tail

/-- The reads of the data behind the `k`-th message. -/
def Wire.dataReads (w : Wire) (k : ℕ) (m : Json) (bs : List Byte) : List ReadRes :=
  let rs := behindMessage (w.up.reads k (w.print m ++ bs))
  if bytesOf rs <+: bs then rs else []

/-- The channel of messages that a wire makes. -/
def Wire.channel (w : Wire) : Channel where
  up _ m := .document (some m)
  down _ r := .document (some r)
  data := w.dataReads
  data_prefix := by
    intro k m bs
    unfold dataReads
    simp only
    split
    · assumption
    · exact List.nil_prefix

end Rds
