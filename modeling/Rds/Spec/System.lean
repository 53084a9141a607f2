import Rds.Spec.ClientMain
import Rds.Spec.Server

/-!
# Clients and their server

Any number of clients and one server, one session after the other. How messages are
delivered and in which reads a file comes is up to the `Channel` of a session. Between
sessions the files of a client and its id may change in any way; its backups are its own.

A step also keeps a record: who uploaded last, and what every request was solved on.
-/

namespace Rds

/-- What becomes of the `k`-th message to the server, of the `k`-th reply, and in which reads
the data behind the `k`-th message comes, by the message: bytes may be missing at the end, none is
new. -/
structure Channel where
  up : ℕ → Json → Delivery
  down : ℕ → Json → Delivery
  data : ℕ → Json → List Byte → List ReadRes
  data_prefix : ∀ k m bs, bytesOf (data k m bs) <+: bs

/-- `ssds_server_process`, by what became of the message. -/
def serverDelivery (env : Env) (fuel : ℕ) (d : Delivery) (fresh : SsdsJsonRead) (sv : Server) :
    Except Halt (Errors × Server) :=
  match d with
  | .lost => return (.networkingError, sv)
  | d =>
    match d.parse fresh with
    | (0, _) => return (.ok, sv)
    | (_, jsonRead) => serverSwitch env fuel jsonRead sv

/-- Whether a message starts the solving for a request. -/
def startsSolving (d : Delivery) (fresh : SsdsJsonRead) : Bool :=
  match ssdsJsRdGetCode (d.parse fresh).2 with
  | .ok code =>
    match Code.ofNum code with
    | some op => op ∈ [Code.getInstall, .getUpdate, .getUpdateAll, .getErase]
    | none => false
  | .error _ => false

/-- A session, between the two: what the client has written and the server not read, what the
server has answered and the client not read, and the content of `@System.solv` the server
held whenever it started solving. -/
structure Link where
  server : Server
  message : Option Json
  data : List Byte
  replies : List Json
  served : ℕ
  delivered : ℕ
  solves : List (Option (List Byte))
  ended : Bool
  halted : Bool

namespace Link

/-- `accept` -/
def accept (sv : Server) : Link where
  server := { sv with clientEnd := false, sent := [] }
  message := none
  data := []
  replies := []
  served := 0
  delivered := 0
  solves := []
  ended := false
  halted := false

variable (ch : Channel) (env : Env) (fuel : ℕ)

/-- One call of `ssds_server_process`. -/
def serve (msg : Json) (l : Link) : Except Halt Unit × Link :=
  let d := ch.up l.served msg
  let fresh := env.fresh l.server.tick
  let sv := { l.server with sock := ⟨ch.data l.served msg l.data, false⟩, sent := [] }.tock
  let l := { l with
    data := [], served := l.served + 1,
    solves := if startsSolving d fresh then l.solves ++ [sv.solv] else l.solves }
  match serverDelivery env fuel d fresh sv with
  | .error h => (.error h, { l with halted := true })
  | .ok (status, sv) =>
    (.ok (), { l with
      server := sv, replies := sv.sent, ended := status ≠ .ok || sv.clientEnd })

/-- The next reply. Once the server has closed the connection the client receives an empty
text, before that it waits. -/
def reply (l : Link) : Except Halt Delivery × Link :=
  match l.replies with
  | r :: replies =>
    (.ok (ch.down l.delivered r), { l with replies, delivered := l.delivered + 1 })
  | [] => if l.ended then (.ok (.document none), l) else (.error .blocked, l)

/-- The client's `sock_recv`: the server deals with the message it has not read yet. -/
def recv (l : Link) : Except Halt Delivery × Link :=
  match l.replies, l.message with
  | [], some msg =>
    let l := { l with message := none }
    if l.ended then l.reply ch
    else
      match l.serve ch env fuel msg with
      | (.ok (), l) => l.reply ch
      | (.error h, l) => (.error h, l)
  | _, _ => l.reply ch

/-- The connection as the client uses it. -/
def peer : Peer Link where
  write msg l := { l with message := some msg, data := [] }
  writeData bs l := { l with data := l.data ++ bs }
  recv := recv ch env fuel

end Link

/-- The last upload of `@System.solv`: whose it was, and whether it was acknowledged and
backed up as it is. -/
structure LastUpload where
  client : ℕ
  kept : Bool
  deriving DecidableEq, Repr

/-- A request being solved: whose it is, the content the server holds and the client's file. -/
structure Solve where
  client : ℕ
  held : Option (List Byte)
  current : Option (List Byte)
  deriving DecidableEq, Repr

/-- What is given to a session. -/
structure SessionInput where
  client : ClientEnv
  stdin : List Char
  env : Env
  fuel : ℕ
  channel : Channel

/-- What happens: a client's id and files change, or a client runs. -/
inductive Event
  | edit (j : ℕ) (id : Option String) (original : UploadFile → Option (List Byte))
  | session (j : ℕ) (s : SessionInput)

/-- The server and its clients. -/
structure Sys where
  server : Server
  machine : ℕ → Machine
  last : Option LastUpload
  solves : List Solve
  halted : Bool

namespace Sys

/-- The run of a client, connected to the server. -/
def clientRun (sys : Sys) (j : ℕ) (s : SessionInput) : ClientRun Link :=
  ((clientMain (Link.peer s.channel s.env s.fuel) s.client).run.run
    { conn := .accept sys.server, machine := sys.machine j, stdin := s.stdin, received := 0,
      trace := [] }).2

/-- The record of the last upload after a run. -/
def lastUpload (last : Option LastUpload) (j : ℕ) (r : ClientRun Link) : Option LastUpload :=
  if .upload .solv ∈ r.trace then
    some { client := j,
           kept := .acknowledged .solv ∈ r.trace ∧ r.machine.backup .solv = r.machine.original .solv }
  else last

/-- One event. A server that is halted serves nobody. -/
def step (sys : Sys) : Event → Sys
  | .edit j id original =>
    { sys with machine := Function.update sys.machine j { sys.machine j with id, original } }
  | .session j s =>
    if sys.halted then sys
    else
      let r := sys.clientRun j s
      { server := r.conn.server
        machine := Function.update sys.machine j r.machine
        last := lastUpload sys.last j r
        solves := sys.solves ++
          r.conn.solves.map fun held => ⟨j, held, (sys.machine j).original .solv⟩
        halted := r.conn.halted }

/-- A run. -/
def run (sys : Sys) (events : List Event) : Sys := events.foldl step sys

end Sys

end Rds
