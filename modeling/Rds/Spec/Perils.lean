import Rds.Spec.ServerMain
import Rds.Spec.UrlArray

/-!
# What ends the server in the middle of a session (`server.c`, `log_handler.c`)

Nothing handles `SIGPIPE`, `ssds_log` calls `exit` when it cannot open its file, and an access
outside an array damages what it hits. `Server` knows none of these; here every call of it is
followed by what they make of the program. Damage that brings it down within the turns that are
looked at (one connection, or all of a run) does so in the turn in which it is done.
-/

namespace Rds.Perils

/-- What the loop of `main` meets in one turn. -/
structure Conn where
  /-- The socket, if `accept` returns one. -/
  sock : Option Sock
  /-- Whether the `k`-th message written to it raises `SIGPIPE`. -/
  pipe : ℕ → Bool
  /-- Whether an access outside an array, made in this turn, brings the program down. -/
  damage : Bool
  /-- Whether `ssds_log` can open its file, each time it is called in this turn. -/
  logFile : Bool

/-- A turn in which none of it happens. -/
def Conn.quiet (sock : Option Sock) : Conn where
  sock := sock
  pipe _ := false
  damage := false
  logFile := true

/-! ## Accesses outside an array -/

/-- The stores of the names of a request go beyond `pkgs`, which has `pkg_count + 1` slots. -/
def namesOutside (json : SsdsJsonRead) : Bool :=
  match ssdsJsRdGetPackagesStores json, ssdsJsRdGetCount json "req_pkgs" with
  | .ok stores, .ok pkgCount => stores.any fun w => pkgCount + 1 ≤ w.1
  | _, _ => false

/-- An access outside a url array. The array given to librepo as a whole ends where its terminator
was stored. -/
def accessOutside (a : UrlArray) : UrlAccess → Bool
  | .terminate i => a.size ≤ i
  | .read i => a.size ≤ i
  | .readAll => false

/-- The repositories of a request, located from the cache, with an access outside the urls of one. -/
def urlsOutside (cache : Cache) (download : ℕ → Download) (json : SsdsJsonRead) : Bool :=
  match json.dataObj.get, ssdsJsRdRepoInfo json with
  | .ok data, .ok list =>
    let accesses := ssdsLocateRepoMetadataAccesses (cache, [])
      (list.zipIdx.map fun r => (r.1, download r.2))
    ((decodedArrays data).zip accesses).any fun p => p.2.any (accessOutside p.1)
  | _, _ => false

/-- A request with an access outside an array: the names of all but `GET_UPDATE_ALL`, and the urls. -/
def requestOutside (cache : Cache) (download : ℕ → Download) (operation : Code)
    (json : SsdsJsonRead) : Bool :=
  (operation ≠ .getUpdateAll && namesOutside json) || urlsOutside cache download json

/-- The `switch` of `ssds_server_process`: only its branch for the requests that are solved makes
such an access. -/
def switchOutside (cache : Cache) (download : ℕ → Download) (json : SsdsJsonRead) : Bool :=
  match ssdsJsRdGetCode json with
  | .ok code =>
    match Code.ofNum code with
    | some .getInstall => requestOutside cache download .getInstall json
    | some .getUpdate => requestOutside cache download .getUpdate json
    | some .getUpdateAll => requestOutside cache download .getUpdateAll json
    | some .getErase => requestOutside cache download .getErase json
    | _ => false
  | .error _ => false

/-- The next message received makes one. -/
def messageOutside (env : Env) (sv : Server) : Bool :=
  match sockRecv sv.sock with
  | .ok (some buf, _) =>
    switchOutside sv.cache (env.download (sv.tick + 1))
      (ssdsJsRdParse env.load (some buf) (env.fresh sv.tick)).2
  | _ => false

/-! ## One connection -/

/-- A message written between the states `sv` and `sv'` raises `SIGPIPE`. -/
def raises (pipe : ℕ → Bool) (sv sv' : Server) : Bool :=
  (List.range sv'.sent.length).any fun k => sv.sent.length ≤ k && pipe k

/-- `ssds_server_process`, and what the perils make of a call that comes back. -/
def ssdsServerProcess (env : Env) (conn : Conn) (fuel : ℕ) (sv : Server) :
    Except Halt (Errors × Server) := do
  let (status, sv') ← Rds.ssdsServerProcess env fuel sv
  if raises conn.pipe sv sv' then .error .killed
  else if conn.damage && messageOutside env sv then .error .crash
  else return (status, sv')

/-- The loop of `ssds_server_accept_connection`. -/
def sessionLoop (env : Env) (conn : Conn) : ℕ → Server → Except Halt (Errors × Server)
  | 0, _ => .error .fuel
  | fuel + 1, sv => do
    if sv.clientEnd then return (.ok, sv)
    else
      let (status, sv) ← ssdsServerProcess env conn fuel sv
      if status = .ok then sessionLoop env conn fuel sv else return (status, sv)

/-- `ssds_server_accept_connection`. It writes to the log in every turn. -/
def ssdsServerAcceptConnection (env : Env) (fuel : ℕ) (conn : Conn) (sv : Server) :
    Except Halt (Errors × Server) :=
  if conn.logFile then
    match conn.sock with
    | none => return (.socketError, sv)
    | some sock => sessionLoop env conn fuel { sv with sock, clientEnd := false, sent := [] }
  else .error .killed

/-! ## The program -/

/-- The loop of `main`. -/
def acceptLoop (env : Env) (fuel : ℕ) : List Conn → Server → Except Halt ServerEnd
  | [], sv => return .waiting sv
  | conn :: conns, sv => do
    let (status, sv) ← ssdsServerAcceptConnection env fuel conn sv
    if status = .exit then return .exited status.num
    else acceptLoop env fuel conns sv

/-- `main`. The log is opened for `Server started.`, and for each message after it; `logFile`
says whether that works until `main` accepts its first client. -/
def serverMain (host : ServerHost) (logFile : Bool) (argv : List Getopt.Arg) (env : Env) (fuel : ℕ)
    (conns : List Conn) (sv : Server) : Except Halt ServerEnd := do
  match ← parseParamsSrv argv with
  | .exited code => return .exited code
  | .parsed _ =>
    if logFile then
      let status ← ssdsServerInit host
      if status ≠ .ok then return .exited status.num
      else acceptLoop env fuel conns sv
    else return .exited exitFailure

end Rds.Perils
