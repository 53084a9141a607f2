import Rds.Spec.Params
import Rds.Spec.ServerMain
import Rds.Spec.Util
import Rds.Spec.Visit

/-!
# The client from its command line on (`client_main.c`, `network_util.c`)

All of `main`: the user, the command line, the configuration, the path of `@System.solv` and the
connection, in this order, and then what `clientMain` does. Calls are such programs that are started
one after the other.
-/

namespace Rds

open Getopt

/-- What the client finds on its machine, and what its surroundings answer. -/
structure ClientHost where
  euid : ℕ
  /-- Whether `ssds_log` can open its file, each time it is called. -/
  logFile : Bool
  /-- The configuration, `none` when it cannot be opened. -/
  cfg : Option (List Byte)
  /-- `id`, `server_address` and `port`, as they are before `read_cfg`. -/
  vars : CfgOut
  /-- What `ssds_resolve_dependency_file_path` is answered. -/
  hasMemory : Bool
  uname : Option Utsname
  junk : Option Byte
  /-- `pathToOriginalSolv`, as it is before. -/
  solvPath : List Byte
  socket : Bool
  /-- Whether the `k`-th `connect` to an address and a port succeeds. -/
  connect : List Byte → ℤ → ℕ → Bool
  file : List Byte → Option (List Byte)
  /-- The text of a string. -/
  text : List Byte → String
  repos : Option ResolvedPath → Option (List RepoEntry)
  fresh : ℕ → SsdsJsonRead
  copy : UploadFile → CopyOutcome
  lr : Librepo
  rpm : Rpm

namespace ClientHost

variable (host : ClientHost)

/-! ## The connection -/

/-- The loop of `client_connect`, within `n` turns: `connection_try` behind it, and whether the last
`connect` succeeded. -/
def connectLoop (connect : ℕ → Bool) : ℕ → ℕ → Except Halt (ℕ × Bool)
  | 0, _ => .error .fuel
  | n + 1, connectionTry =>
    if !connect connectionTry ∧ connectionTry < 3 then connectLoop connect n (connectionTry + 1)
    else .ok (connectionTry, connect connectionTry)

/-- `client_connect`: its value, and whether there is a connection. -/
def clientConnect (serverAddress : List Byte) (port : ℤ) : Except Halt (Errors × Bool) :=
  if !host.socket then return (.socketError, false)
  else do
    let (connectionTry, connected) ← connectLoop (host.connect serverAddress (htons port)) 3 1
    if connectionTry = 3 then return (.networkingError, connected)
    else return (.ok, connected)

/-! ## The run -/

/-- `PAR_UPDATE_ALL`. The command line cannot ask for it. -/
def parUpdateAll : ℤ := 5

/-- The command that is stored in the parameters. The `switch` does nothing for any other number,
as for `PAR_CHK_DEP`. -/
def commandOf (command : ℤ) : Command :=
  if command = parInstall then .install
  else if command = parUpdate then .update
  else if command = parErase then .erase
  else if command = parUpdateAll then .updateAll
  else .chkDep

/-- What the run is given. -/
def env (params : ParamOptsCl) (path : Option ResolvedPath) : ClientEnv where
  command := commandOf params.command
  pkgs := params.pkgs.map host.text
  repos := host.repos path
  fresh := host.fresh
  copy := host.copy
  lr := host.lr
  rpm := host.rpm

/-- `id` is only compared with `NULL`. -/
def machineId : Ptr (List Byte) → Option String
  | .null => none
  | .good id => some (host.text id)
  | .wild => some ""

def machine (id : Ptr (List Byte)) (path : Option ResolvedPath) : Machine where
  id := host.machineId id
  original
    | .solv => host.file ((path.map ResolvedPath.path).getD host.solvPath)
    | .yum => host.file (cBytes "/etc/yum.conf")
  backup
    | .solv => host.file (cBytes "/var/cache/ssds/@System.solv")
    | .yum => host.file (cBytes "/var/cache/ssds/yum.conf")

end ClientHost

/-- How the client's program ends: before its session, perhaps with a connection, or with it. -/
inductive ClientEnd (σ : Type)
  | stopped (code : ℤ) (connected : Bool)
  | session (env : ClientEnv) (result : Except Halt ℤ) (r : ClientRun σ)

variable {σ : Type}

/-- `main` behind the parameters. -/
def clientSession (host : ClientHost) (params : ParamOptsCl) (peer : Peer σ) (conn : σ)
    (stdin : List Char) : Except Halt (ClientEnd σ) := do
  let (_, out) ← readCfg host.cfg host.vars
  let path ← ssdsResolveDependencyFilePath host.hasMemory host.uname host.junk
  match out.address with
  | .good serverAddress =>
    let (status, connected) ← host.clientConnect serverAddress out.commPort
    if status ≠ .ok then return .stopped status.num connected
    else
      let env := host.env params path
      let (result, r) := (clientMain peer env).run.run
        { conn, machine := host.machine out.clientId path, stdin, received := 0, trace := [] }
      return .session env result r
  | _ => .error .crash

/-- `main`. Whoever the user is, the first thing it does is to write to the log. -/
def clientProgram (host : ClientHost) (argv : List Arg) (peer : Peer σ) (conn : σ)
    (stdin : List Char) : Except Halt (ClientEnd σ) :=
  if !host.logFile then return .stopped exitFailure false
  else if host.euid ≠ 0 then return .stopped Errors.rootError.num false
  else do
    match ← parseParamsCl argv initParamsCl with
    | .exited => return .stopped exitSuccess false
    | .returned ret st =>
      if ret ≠ 0 then return .stopped Errors.paramsError.num false
      else clientSession host st.params peer conn stdin

/-! ## Calls -/

/-- What the server's `accept` returns of a client's program. One that stops with a connection writes
nothing to it. -/
def ClientEnd.sock (w : Wire) : ClientEnd Duplex → Option Sock
  | .stopped _ connected => if connected then some ⟨[], true⟩ else none
  | .session _ _ r => some ⟨r.conn.sends w, true⟩

/-- The server after a client's program. -/
def ClientEnd.server (sv : Server) : ClientEnd Duplex → Server
  | .stopped _ _ => sv
  | .session _ _ r => r.conn.server

/-- A client's program that is started, and the wire its connection is on. -/
structure Call where
  host : ClientHost
  name : Arg
  args : List Arg
  wire : Wire
  stdin : List Char

namespace Call

variable (env : Env) (fuel : ℕ)

/-- How the program ends. -/
def ends (sv : Server) (c : Call) : Except Halt (ClientEnd Duplex) :=
  clientProgram c.host (c.name :: c.args) (Duplex.peer c.wire env fuel) (.accept sv) c.stdin

/-- The server after it. Nothing that halts before the session has a connection. -/
def leaves (sv : Server) (c : Call) : Server :=
  match c.ends env fuel sv with
  | .ok e => e.server sv
  | .error _ => sv

/-- The connection that comes of it, if there is one. -/
def comes (sv : Server) (c : Call) : List (Option Sock) :=
  match c.ends env fuel sv with
  | .ok e => (e.sock c.wire).toList.map some
  | .error _ => []

/-- What `accept` returns, one call after the other. -/
def socks : Server → List Call → List (Option Sock)
  | _, [] => []
  | sv, c :: cs => c.comes env fuel sv ++ socks (c.leaves env fuel sv) cs

end Call

end Rds
