import Rds.Spec.MemManagement
import Rds.Spec.Server

/-!
# The memory of a session (`server.c` and what it calls)

The functions of a session once more, with what each of them asks of the collector:
`ssds_malloc`, `ssds_realloc`, `ssds_free`, `ssds_accept` and `ssds_close`, in the order of the
source. What they compute is left to the functions without. Blocks of plain `malloc` count where
`ssds_free` gets them. Sizes are those of a 64-bit machine.
-/

namespace Rds.Collected

/-- What the system answers to the next call, by the calls of the collector so far. A block or a
descriptor that it refuses is `none`. -/
structure System where
  malloc : List GcCall → Option Address
  realloc : List GcCall → Address → Option Address
  /-- The block for a new item. -/
  item : List GcCall → ItemBlock
  accept : List GcCall → Option Fd
  /-- The block of `ssds_js_cr_init`, from plain `malloc`. -/
  json : List GcCall → Option Address

/-- A part of the program, with the calls of the collector so far. `none` if it does not return:
it crashes, it waits for ever, or the collector exits for want of memory. -/
abbrev GcM := StateT (List GcCall) Option

/-- One more call. -/
def noted (call : GcCall) : GcM Unit := modify fun calls => calls ++ [call]

/-- A part that asks nothing of the collector. -/
def plain {α : Type} (x : Except Halt α) : GcM α := StateT.lift x.toOption

/-- `strlen` -/
def strlen (s : String) : ℤ := s.utf8ByteSize

section
variable (sys : System)

/-- `ssds_malloc`. Each caller writes to the block at once, and crashes if there is none. -/
def malloc (size : ℤ) : GcM Address := do
  let calls ← get
  match sys.malloc calls, sys.item calls with
  | some p, some block =>
    noted (.malloc size (some p) (some block))
    return p
  | _, _ => failure

/-- `ssds_realloc`. A block that moves gets a new item. -/
def realloc (old : Address) (size : ℤ) : GcM Address := do
  let calls ← get
  match sys.realloc calls old with
  | some p =>
    if p ≠ old ∧ sys.item calls = none then failure
    else
      noted (.realloc old size (some p) (sys.item calls))
      return p
  | none => failure

/-- `ssds_free` -/
def free (p : Address) : GcM Unit := noted (.free p)

/-- `ssds_close` -/
def close (fd : Fd) : GcM Unit := noted (.close fd)

/-- `ssds_accept` -/
def accept : GcM (Option Fd) := do
  let calls ← get
  match sys.accept calls with
  | none =>
    noted (.accept none none)
    return none
  | some fd =>
    match sys.item calls with
    | none => failure
    | some block =>
      noted (.accept (some fd) (some block))
      return some fd

/-! ## Receiving -/

/-- `ssds_realloc` in a turn of the receive loops. -/
def growBlock (m : RecvLoop) (p : Address) : GcM Address :=
  if (m.readCount + 1) * maxInputLen ≥ m.buffSz * buffSize then
    realloc sys p ((m.buffSz + 1) * buffSize : ℕ)
  else return p

/-- The `do … while` loop of `sock_recv` and `sock_solv_recv`, and where its buffer ends up. -/
def recvLoop (closed : Bool) : List ReadRes → RecvLoop → Address →
    GcM ((RecvLoop × List ReadRes) × Address)
  | [], m, p =>
    if closed then do
      let p ← growBlock sys m p
      let m ← plain (m.grow.store .eof)
      return ((m, []), p)
    else failure
  | r :: rs, m, p => do
    let p ← growBlock sys m p
    let m ← plain (m.grow.store r)
    if r.Short then return ((m, rs), p) else recvLoop closed rs m p

/-- `sock_recv`: the block it returns and what is in it. -/
def sockRecv (s : Sock) : GcM (Option (Address × Option (List Byte)) × Sock) := do
  let reply ← malloc sys maxInputLen
  let (r, s) ← plain (ssdsRead s)
  match r with
  | .err =>
    free reply
    return (none, s)
  | .got bs _ =>
    if bs.length = maxInputLen then do
      let buffer ← malloc sys buffSize
      let ((m, rs), buffer) ← recvLoop sys s.closed s.reads (.init r) buffer
      free reply
      return (some (buffer, m.buffer), { s with reads := rs })
    else return (some (reply, some r.block), s)

/-- `sock_solv_recv`: its value, `*buffer` and what is in it. -/
def sockSolvRecv (s : Sock) : GcM ((ℤ × Address × Option (List Byte)) × Sock) := do
  let buffer ← malloc sys maxInputLen
  let (r, s) ← plain (ssdsRead s)
  match r with
  | .err =>
    free buffer
    return ((-1, buffer, none), s)
  | .got bs _ =>
    if bs.length = maxInputLen then do
      let buff ← malloc sys buffSize
      let ((m, rs), buff) ← recvLoop sys s.closed s.reads (.init r) buff
      free buffer
      return ((m.retVal, buff, m.buffer), { s with reads := rs })
    else return ((r.ret, buffer, some r.block), s)

/-! ## Uploads -/

/-- The receiving loop of an upload branch. -/
def uploadLoop (env : Env) (u : Upload) (bytesToWrite : ℤ) :
    ℕ → ℤ → SsdsJsonCreate → Server → GcM (SsdsJsonCreate × Server)
  | 0, _, _, _ => failure
  | fuel + 1, bytesWritten, json, sv => do
    let ((ret, commBuffer, content), sock) ← sockSolvRecv sys sv.sock
    let bytesRead := toInt ret
    match fwriteFile env { sv with sock } u.file bytesRead content with
    | (false, sv) =>
      let json := ssdsJsCrSetMessage (ssdsJsCrInsertCode json .answerError) u.writeError
      return (json, { sv with clientEnd := true })
    | (true, sv) =>
      free commBuffer
      let bytesWritten := toInt (bytesWritten + bytesRead)
      if bytesRead < 0 then
        return (ssdsJsCrSetMessage json u.readError, { sv with clientEnd := true })
      else if bytesWritten = bytesToWrite then return (json, sv)
      else uploadLoop env u bytesToWrite fuel bytesWritten json sv

/-- An upload branch. -/
def uploadBranch (env : Env) (u : Upload) (fuel : ℕ) (jsonSend : SsdsJsonCreate)
    (jsonRead : SsdsJsonRead) (sv : Server) : GcM (Errors × Server) := do
  let bytesToWrite ← plain (ssdsJsRdGetReadBytes jsonRead)
  if env.fopen sv.tick then
    let (json, sv) ←
      uploadLoop sys env u bytesToWrite fuel 0 jsonSend (sv.setFile u.file []).tock
    return (.ok, sv.reply json)
  else
    let json := ssdsJsCrSetMessage (ssdsJsCrInsertCode jsonSend .answerError) u.createError
    return (.fileError, sv.tock.reply json)

/-! ## Requests -/

/-- The copy of `repo_url`. -/
def repoUrlLoop (urlArr : Option JsonArray) : ℕ → ℕ → GcM (List String)
  | 0, _ => return []
  | n + 1, j =>
    match jsonArrayGetStringElement urlArr j with
    | none => failure
    | some word => do
      let _ ← malloc sys (strlen word + 1)
      return word :: (← repoUrlLoop urlArr n (j + 1))

/-- One turn of `ssds_js_rd_repo_info`: the record, its name, its array and every url in it. -/
def repoInfoAt (array : Option JsonArray) (i : ℕ) : GcM SsdsRepoInfo := do
  let _ ← malloc sys 24
  let obj := jsonArrayGetObjectElement array i
  let type := toInt (jsonObjectGetIntMember obj "type")
  match jsonObjectGetStringMember obj "name" with
  | none => failure
  | some currName =>
    let _ ← malloc sys (strlen currName + 1)
    let urlArr := jsonObjectGetArrayMember obj "repo_url"
    let _ ← malloc sys (8 * jsonArrayGetLength urlArr)
    let urls ← repoUrlLoop sys urlArr (jsonArrayGetLength urlArr) 0
    return { urls, name := currName, type }

/-- `ssds_js_rd_repo_info` -/
def ssdsJsRdRepoInfo (json : SsdsJsonRead) : GcM (List SsdsRepoInfo) := do
  let array := jsonObjectGetArrayMember (← plain json.dataObj.get) "repolist"
  (List.range (jsonArrayGetLength array)).mapM (repoInfoAt sys array)

/-- `full_path_to_metadata` -/
def fullPathToMetadata (repoName : String) : GcM String := do
  let _ ← malloc sys (strlen (Rds.fullPathToMetadata repoName) + 1)
  return Rds.fullPathToMetadata repoName

/-- `local_repo_metadata` -/
def localRepoMetadata (cache : Cache) (repo : SsdsRepoInfo) (list : List SsdsMetadataFilesLoc) :
    GcM (Bool × List SsdsMetadataFilesLoc) := do
  let localPath ← fullPathToMetadata sys repo.name
  let _ ← malloc sys 16
  match cache (resolvePath localPath) with
  | some md =>
    let _ ← malloc sys 32
    return (true, list ++ [metadataLoc localPath md repo])
  | none => return (false, list)

/-- `download_repo_metadata_by_url` -/
def downloadRepoMetadataByUrl (cache : Cache) (repo : SsdsRepoInfo) (download : Download)
    (list : List SsdsMetadataFilesLoc) : GcM (Cache × List SsdsMetadataFilesLoc) := do
  let fullPath ← fullPathToMetadata sys repo.name
  match urlOption repo, download with
  | some origin, some (filelists, primary) =>
    let md : Metadata := { origin, filelists, primary }
    let _ ← malloc sys 32
    return (Function.update cache (resolvePath fullPath) (some md),
      list ++ [metadataLoc fullPath md repo])
  | _, _ => return (cache, list)

/-- One turn of the loop of `ssds_locate_repo_metadata`. -/
def locateOne (st : Cache × List SsdsMetadataFilesLoc) (rd : SsdsRepoInfo × Download) :
    GcM (Cache × List SsdsMetadataFilesLoc) := do
  match ← localRepoMetadata sys st.1 rd.1 st.2 with
  | (true, list) => return (st.1, list)
  | (false, list) => downloadRepoMetadataByUrl sys st.1 rd.1 rd.2 list

/-- `ssds_locate_repo_metadata` -/
def ssdsLocateRepoMetadata (cache : Cache) (repos : List (SsdsRepoInfo × Download)) :
    GcM (Cache × List SsdsMetadataFilesLoc) :=
  repos.foldlM (locateOne sys) (cache, [])

/-- `ssds_fill_sack`: a path for every repository. -/
def ssdsFillSack (list : List SsdsMetadataFilesLoc) : GcM (List HyRepo) :=
  list.mapM fun file => do
    let mdFn := file.repomd ++ "/repodata/repomd.xml"
    let _ ← malloc sys (strlen mdFn + 1)
    return { mdFn, primaryFn := file.primary, filelistsFn := file.filelists, name := file.repoName }

/-- The branch for a request. The names of its packages are in blocks of plain `malloc`. -/
def getBranch (env : Env) (operation : Code) (jsonSend : SsdsJsonCreate) (jsonRead : SsdsJsonRead)
    (sv : Server) : GcM (Errors × Server) := do
  let sv := sv.reply jsonSend
  let (pkgs, pkgCount) ← plain (requestPkgs (env.slots sv.tick) operation jsonRead)
  let _ ← malloc sys 8 -- `ssds_js_rd_list_init`
  let list ← ssdsJsRdRepoInfo sys jsonRead
  let _ ← malloc sys 8 -- `ssds_repo_metadata_init`
  let (cache, metaList) ← ssdsLocateRepoMetadata sys sv.cache
    (list.zipIdx.map fun r => (r.1, env.download sv.tick r.2))
  let sack := env.sack sv.tick (← ssdsFillSack sys metaList)
  let r ← plain (ssdsDepQuery (env.hawkey sv.tick) pkgs jsonSend sack operation pkgCount)
  let json := solvedMessage (env.reg sv.tick) r
  return (.ok, { ({ sv with cache }.tock).reply json with clientEnd := true })

/-! ## The session -/

/-- The `switch` of `ssds_server_process`. -/
def serverSwitch (env : Env) (fuel : ℕ) (jsonRead : SsdsJsonRead) (sv : Server) :
    GcM (Errors × Server) := do
  let jsonSend := ssdsJsCrInit .answerOk
  let code ← plain (ssdsJsRdGetCode jsonRead)
  match Code.ofNum code with
  | some .sendSolv => uploadBranch sys env sendSolvUpload fuel jsonSend jsonRead sv
  | some .sendYumConf => uploadBranch sys env sendYumConfUpload fuel jsonSend jsonRead sv
  | some .getInstall => getBranch sys env .getInstall jsonSend jsonRead sv
  | some .getUpdate => getBranch sys env .getUpdate jsonSend jsonRead sv
  | some .getUpdateAll => getBranch sys env .getUpdateAll jsonSend jsonRead sv
  | some .getErase => getBranch sys env .getErase jsonSend jsonRead sv
  | some .getDependency => return (.ok, { sv.reply jsonSend with clientEnd := true })
  | _ => return (.ok, sv)

/-- `ssds_server_process` from the test of `buf` to `processEnd`. -/
def serverMessage (env : Env) (fuel : ℕ) (buf : Option (List Byte)) (fresh : SsdsJsonRead)
    (sv : Server) : GcM (Errors × Server) :=
  match buf with
  | none => return (.networkingError, sv)
  | some buf =>
    match ssdsJsRdParse env.load (some buf) fresh with
    | (0, _) => return (.ok, sv)
    | (_, jsonRead) => serverSwitch sys env fuel jsonRead sv

/-- `ssds_js_cr_init`, as a block. -/
def ssdsJsCrInitBlock : GcM Address := do
  match sys.json (← get) with
  | some p => return p
  | none => failure

/-- `ssds_server_process`. What is freed at its end are the reader and the answer. -/
def ssdsServerProcess (env : Env) (fuel : ℕ) (sv : Server) : GcM (Errors × Server) := do
  let (buf, sock) ← sockRecv sys sv.sock
  let jsonSend ← ssdsJsCrInitBlock sys
  let jsonRead ← malloc sys 48
  let r ← serverMessage sys env fuel (buf.bind Prod.snd) (env.fresh sv.tick) ({ sv with sock }.tock)
  free jsonRead
  free jsonSend
  return r

/-- The loop of `ssds_server_accept_connection`. -/
def sessionLoop (env : Env) : ℕ → Server → GcM (Errors × Server)
  | 0, _ => failure
  | fuel + 1, sv => do
    if sv.clientEnd then return (.ok, sv)
    else
      let (status, sv) ← ssdsServerProcess sys env fuel sv
      if status = .ok then sessionLoop env fuel sv else return (status, sv)

/-- `ssds_server_accept_connection`, with the connection that waits. A failed `ssds_accept` is
closed, too: its value is -1. -/
def ssdsServerAcceptConnection (env : Env) (fuel : ℕ) (sock : Sock) (sv : Server) :
    GcM (Errors × Server) := do
  match ← accept sys with
  | none =>
    close (-1)
    return (.socketError, sv)
  | some fd =>
    let r ← sessionLoop sys env fuel { sv with sock, clientEnd := false, sent := [] }
    close fd
    return r

end

end Rds.Collected
