import Rds.Spec.Wire

/-!
# What goes over a connection

What a run of the client has written, by what it has done, and in which reads all of it arrives at
the server's `accept`. A visit is one such run, from the connection to its end; visits come one
after the other.
-/

namespace Rds

/-- The message that an act of the client writes, and the data behind it. -/
def eventWrites (cenv : ClientEnv) (m : Machine) : ClientEvent → Option (Json × List Byte)
  | .upload f => do
    let file ← m.original f
    return (ssdsJsCrToString (sendFileHeader f file.length), file)
  | .request action => do
    let repos ← cenv.repos
    let json ← (repoMessage repos cenv.pkgs action).toOption
    return (ssdsJsCrToString json, [])
  | .acknowledged _ => none
  | .copied _ => none

/-- Everything a run has written. -/
def ClientRun.written {σ : Type} (cenv : ClientEnv) (r : ClientRun σ) : List (Json × List Byte) :=
  r.trace.filterMap (eventWrites cenv r.machine)

/-- The reads of everything the client has written. -/
def Duplex.sends (w : Wire) (d : Duplex) : List ReadRes := d.arrived ++ d.coming w

/-- An act the server answers. -/
def ClientEvent.asks : ClientEvent → Bool
  | .upload _ => true
  | .request _ => true
  | .acknowledged _ => false
  | .copied _ => false

/-- The last act of a run was a request, or an upload that was not acknowledged. -/
def ClientRun.lastAsks {σ : Type} (r : ClientRun σ) : Bool := r.trace.getLast?.any ClientEvent.asks

/-- A client that connects, and the wires it does so on. -/
structure Visit where
  wire : Wire
  client : ClientEnv
  machine : Machine
  stdin : List Char

namespace Visit

variable (env : Env) (fuel : ℕ)

/-- The client's run, from the connection on. -/
def run (sv : Server) (v : Visit) : Except Halt ℤ × ClientRun Duplex :=
  (clientMain (Duplex.peer v.wire env fuel) v.client).run.run
    { conn := .accept sv, machine := v.machine, stdin := v.stdin, received := 0, trace := [] }

/-- The server after it. -/
def leaves (sv : Server) (v : Visit) : Server := (v.run env fuel sv).2.conn.server

/-- The reads of everything the client has written. At its end the client closes the connection. -/
def sock (sv : Server) (v : Visit) : Sock :=
  ⟨(v.run env fuel sv).2.conn.sends v.wire, true⟩

/-- What `accept` returns, one visit after the other. -/
def socks : Server → List Visit → List (Option Sock)
  | _, [] => []
  | sv, v :: vs => some (v.sock env fuel sv) :: socks (v.leaves env fuel sv) vs

end Visit

end Rds
