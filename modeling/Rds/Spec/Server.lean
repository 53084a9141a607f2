import Rds.Spec.Solving

/-!
# The server (`server.c`)

One session: the loop of `ssds_server_accept_connection` around `ssds_server_process`.
Every answer of the outside world is in `Env`; each call that asks for one takes the
answer with the number of the call (`tick`). Loops that need not end take fuel.
Logging and the release of memory are left out.
-/

namespace Rds

/-- What the server's surroundings answer. -/
structure Env where
  /-- json-glib's parser. -/
  load : List Byte → Option (Option Json)
  /-- What a newly allocated reader holds. -/
  fresh : ℕ → SsdsJsonRead
  /-- Whether a file can be opened for writing. -/
  fopen : ℕ → Bool
  /-- How many bytes an `fwrite` can store. -/
  fwrite : ℕ → ℕ
  /-- What a newly allocated array of names holds. -/
  slots : ℕ → ℕ → Ptr String
  /-- What the download for the `i`-th repository of a request brings. -/
  download : ℕ → ℕ → Download
  /-- The sack hawkey fills from the repositories loaded. -/
  sack : ℕ → List HyRepo → HySack
  /-- hawkey, as it answers one request. -/
  hawkey : ℕ → Hawkey
  /-- What the return register holds after a function that ends without `return`. -/
  reg : ℕ → ℤ

/-- The server during a session. -/
structure Server where
  sock : Sock
  solv : Option (List Byte)
  yum : Option (List Byte)
  cache : Cache
  sent : List Json
  clientEnd : Bool
  tick : ℕ

namespace Server

/-- What a file holds, `none` when there is none. -/
def file (sv : Server) : UploadFile → Option (List Byte)
  | .solv => sv.solv
  | .yum => sv.yum

def setFile (sv : Server) (f : UploadFile) (content : List Byte) : Server :=
  match f with
  | .solv => { sv with solv := some content }
  | .yum => { sv with yum := some content }

/-- One question to the surroundings has been asked. -/
def tock (sv : Server) : Server := { sv with tick := sv.tick + 1 }

/-- `secure_write` of the message under construction. Whether it raises `SIGPIPE` is not seen here but
in `Perils`. -/
def reply (sv : Server) (json : SsdsJsonCreate) : Server :=
  { sv with sent := sv.sent ++ [ssdsJsCrToString json] }

@[simp] theorem file_setFile (sv : Server) (f : UploadFile) (c : List Byte) :
    (sv.setFile f c).file f = some c := by cases f <;> rfl

@[simp] theorem sock_setFile (sv : Server) (f : UploadFile) (c : List Byte) :
    (sv.setFile f c).sock = sv.sock := by cases f <;> rfl

@[simp] theorem sent_setFile (sv : Server) (f : UploadFile) (c : List Byte) :
    (sv.setFile f c).sent = sv.sent := by cases f <;> rfl

@[simp] theorem sent_reply (sv : Server) (json : SsdsJsonCreate) :
    (sv.reply json).sent = sv.sent ++ [ssdsJsCrToString json] := rfl

@[simp] theorem sent_tock (sv : Server) : sv.tock.sent = sv.sent := rfl

@[simp] theorem file_reply (sv : Server) (json : SsdsJsonCreate) (f : UploadFile) :
    (sv.reply json).file f = sv.file f := by cases f <;> rfl

end Server

/-- What differs between the two upload branches: the file and the texts. -/
structure Upload where
  file : UploadFile
  createError : String
  writeError : String
  readError : String
  deriving DecidableEq, Repr

/-- The branch for `SEND_SOLV`. -/
def sendSolvUpload : Upload where
  file := .solv
  createError := "Error while creating @System.solv file on server side."
  writeError := "Error while writing to @System.solv file on server side.\n"
  readError := "Error while reading data from client."

/-- The branch for `SEND_YUM_CONF`. -/
def sendYumConfUpload : Upload where
  file := .yum
  createError := "Error while creating yum.conf file on server side."
  writeError := "Error while writing to yum.conf file on server side.\n"
  readError := "Error while reading data fom client."

/-- `fwrite(buf, 1, n, f)`, and whether it stored all `n` bytes. A count of -1 asks for
`(size_t)-1` bytes of a buffer that has been freed; this is assumed to fail and to store nothing. -/
def fwriteFile (env : Env) (sv : Server) (f : UploadFile) (n : ℤ) (buf : Option (List Byte)) :
    Bool × Server :=
  if n < 0 then (false, sv.tock)
  else
    let stored := min n.toNat (env.fwrite sv.tick)
    (stored = n.toNat,
      (sv.setFile f ((sv.file f).getD [] ++ (buf.getD []).take stored)).tock)

/-- The receiving loop of an upload branch: the message to answer with. -/
def uploadLoop (env : Env) (u : Upload) (bytesToWrite : ℤ) :
    ℕ → ℤ → SsdsJsonCreate → Server → Except Halt (SsdsJsonCreate × Server)
  | 0, _, _, _ => .error .fuel
  | fuel + 1, bytesWritten, json, sv => do
    let ((ret, commBuffer), sock) ← sockSolvRecv sv.sock
    let bytesRead := toInt ret
    match fwriteFile env { sv with sock } u.file bytesRead commBuffer with
    | (false, sv) =>
      let json := ssdsJsCrSetMessage (ssdsJsCrInsertCode json .answerError) u.writeError
      return (json, { sv with clientEnd := true })
    | (true, sv) =>
      let bytesWritten := toInt (bytesWritten + bytesRead)
      if bytesRead < 0 then
        return (ssdsJsCrSetMessage json u.readError, { sv with clientEnd := true })
      else if bytesWritten = bytesToWrite then return (json, sv)
      else uploadLoop env u bytesToWrite fuel bytesWritten json sv

/-- An upload branch. `fopen` for writing empties the file. -/
def uploadBranch (env : Env) (u : Upload) (fuel : ℕ) (jsonSend : SsdsJsonCreate)
    (jsonRead : SsdsJsonRead) (sv : Server) : Except Halt (Errors × Server) := do
  let bytesToWrite ← ssdsJsRdGetReadBytes jsonRead
  if env.fopen sv.tick then
    let (json, sv) ← uploadLoop env u bytesToWrite fuel 0 jsonSend (sv.setFile u.file []).tock
    return (.ok, sv.reply json)
  else
    let json := ssdsJsCrSetMessage (ssdsJsCrInsertCode jsonSend .answerError) u.createError
    return (.fileError, sv.tock.reply json)

/-- The message after `ssds_dep_query`: its value is compared with -1. -/
def solvedMessage (reg : ℤ) (r : DepResult) : SsdsJsonCreate :=
  if r.ret.getD reg = -1 then
    ssdsJsCrSetMessage (ssdsJsCrInsertCode r.answer .answerNoDep)
      "Dependencies for requested package were not resolved. Package cannot be installed\n"
  else ssdsJsCrInsertCode r.answer .answerOk

/-- The names of a request: the array as the decoder leaves it, and the count. -/
def requestPkgs (junk : ℕ → Ptr String) (operation : Code) (jsonRead : SsdsJsonRead) :
    Except Halt ((ℕ → Ptr String) × ℕ) := do
  if operation = .getUpdateAll then return (junk, 0)
  else
    let pkgCount ← ssdsJsRdGetCount jsonRead "req_pkgs"
    let pkgs ← ssdsJsRdGetPackages junk jsonRead
    return (pkgs, pkgCount)

/-- The branch for `GET_INSTALL`, `GET_UPDATE`, `GET_UPDATE_ALL` and `GET_ERASE`. -/
def getBranch (env : Env) (operation : Code) (jsonSend : SsdsJsonCreate) (jsonRead : SsdsJsonRead)
    (sv : Server) : Except Halt (Errors × Server) := do
  let sv := sv.reply jsonSend
  let (pkgs, pkgCount) ← requestPkgs (env.slots sv.tick) operation jsonRead
  let list ← ssdsJsRdRepoInfo jsonRead
  let (cache, metaList) :=
    ssdsLocateRepoMetadata sv.cache (list.zipIdx.map fun r => (r.1, env.download sv.tick r.2))
  let sack := env.sack sv.tick (ssdsFillSack metaList)
  let r ← ssdsDepQuery (env.hawkey sv.tick) pkgs jsonSend sack operation pkgCount
  let json := solvedMessage (env.reg sv.tick) r
  return (.ok, { ({ sv with cache }.tock).reply json with clientEnd := true })

/-- The `switch` of `ssds_server_process`. -/
def serverSwitch (env : Env) (fuel : ℕ) (jsonRead : SsdsJsonRead) (sv : Server) :
    Except Halt (Errors × Server) := do
  let jsonSend := ssdsJsCrInit .answerOk
  let code ← ssdsJsRdGetCode jsonRead
  match Code.ofNum code with
  | some .sendSolv => uploadBranch env sendSolvUpload fuel jsonSend jsonRead sv
  | some .sendYumConf => uploadBranch env sendYumConfUpload fuel jsonSend jsonRead sv
  | some .getInstall => getBranch env .getInstall jsonSend jsonRead sv
  | some .getUpdate => getBranch env .getUpdate jsonSend jsonRead sv
  | some .getUpdateAll => getBranch env .getUpdateAll jsonSend jsonRead sv
  | some .getErase => getBranch env .getErase jsonSend jsonRead sv
  | some .getDependency => return (.ok, { sv.reply jsonSend with clientEnd := true })
  | _ => return (.ok, sv)

/-- `ssds_server_process` once `sock_recv` has returned; `fresh` is the new reader as it
was allocated. -/
def serverMessage (env : Env) (fuel : ℕ) (buf : Option (List Byte)) (fresh : SsdsJsonRead)
    (sv : Server) : Except Halt (Errors × Server) :=
  match buf with
  | none => return (.networkingError, sv)
  | some buf =>
    match ssdsJsRdParse env.load (some buf) fresh with
    | (0, _) => return (.ok, sv) -- the client is rejected
    | (_, jsonRead) => serverSwitch env fuel jsonRead sv

/-- `ssds_server_process` -/
def ssdsServerProcess (env : Env) (fuel : ℕ) (sv : Server) : Except Halt (Errors × Server) := do
  let (buf, sock) ← sockRecv sv.sock
  serverMessage env fuel buf (env.fresh sv.tick) ({ sv with sock }.tock)

/-- The loop of `ssds_server_accept_connection`. -/
def sessionLoop (env : Env) : ℕ → Server → Except Halt (Errors × Server)
  | 0, _ => .error .fuel
  | fuel + 1, sv => do
    if sv.clientEnd then return (.ok, sv)
    else
      let (status, sv) ← ssdsServerProcess env fuel sv
      if status = .ok then sessionLoop env fuel sv else return (status, sv)

/-- `ssds_server_accept_connection`: `conn` is the socket of the client, if `accept`
returned one. -/
def ssdsServerAcceptConnection (env : Env) (fuel : ℕ) (conn : Option Sock) (sv : Server) :
    Except Halt (Errors × Server) :=
  match conn with
  | none => return (.socketError, sv)
  | some sock => sessionLoop env fuel { sv with sock, clientEnd := false, sent := [] }

end Rds
