import Rds.Spec.Client
import Mathlib.Logic.Function.Basic

/-!
# The client's `main` (`client_main.c`)

From the connection to the server on: the uploads, the request and its answer. The
connection is a `Peer` that takes what the client writes and answers its `sock_recv`.
A run keeps its state when it halts, so what was done before stays done.
-/

namespace Rds

/-- The server's side of a connection, as the client uses it. -/
structure Peer (σ : Type) where
  write : Json → σ → σ
  writeData : List Byte → σ → σ
  recv : σ → Except Halt Delivery × σ

/-- The client's machine: its id in the configuration, the two files and their backups
(`none` is a file that cannot be opened). -/
structure Machine where
  id : Option String
  original : UploadFile → Option (List Byte)
  backup : UploadFile → Option (List Byte)

/-- The commands the client is called with. -/
inductive Command
  | install
  | update
  | erase
  | chkDep
  | updateAll
  deriving DecidableEq, Repr

/-- A repository as `ssds_get_repo_urls` adds it to the request. -/
structure RepoEntry where
  urls : List String
  name : Option String
  type : ℤ

/-- What is given to one run of the client: its parameters, and what its surroundings
answer. `repos` is `none` when the repositories cannot be loaded. -/
structure ClientEnv where
  command : Command
  pkgs : List String
  repos : Option (List RepoEntry)
  fresh : ℕ → SsdsJsonRead
  copy : UploadFile → CopyOutcome
  lr : Librepo
  rpm : Rpm

/-- What a run does, for the record. -/
inductive ClientEvent
  | upload (f : UploadFile)
  | acknowledged (f : UploadFile)
  | copied (f : UploadFile)
  | request (action : Code)
  deriving DecidableEq, Repr

/-- The state of a run. What `ssds_answer_process` did is kept, once it has been called. -/
structure ClientRun (σ : Type) where
  conn : σ
  machine : Machine
  stdin : List Char
  received : ℕ
  trace : List ClientEvent
  answer : Option AnswerResult := none

/-- A part of a run. -/
abbrev ClientM (σ : Type) := ExceptT Halt (StateM (ClientRun σ))

section
variable {σ : Type} (peer : Peer σ) (env : ClientEnv)

/-- For the record. -/
def record (e : ClientEvent) : ClientM σ Unit :=
  modify fun r => { r with trace := r.trace ++ [e] }

/-- A computation outside the connection. -/
def lift {α : Type} (x : Except Halt α) : ClientM σ α := ExceptT.mk (pure x)

/-- `sock_recv` and a new reader. -/
def receive : ClientM σ (SsdsJsonRead × Delivery) := do
  let r ← get
  let (d, conn) := peer.recv r.conn
  set { r with conn, received := r.received + 1 }
  return (env.fresh r.received, ← lift d)

/-- The writes of `ssds_send_file`. -/
def writeFile (f : UploadFile) (file : List Byte) (conn : σ) : σ :=
  (sendFileLoop file).foldl (fun conn data => peer.writeData data conn)
    (peer.write (ssdsJsCrToString (sendFileHeader f file.length)) conn)

/-- `ssds_send_file` -/
def ssdsSendFile (f : UploadFile) : ClientM σ Errors := do
  match (← get).machine.original f with
  | none => return .fileError
  | some file =>
    record (.upload f)
    modify fun r => { r with conn := writeFile peer f file r.conn }
    let (fresh, d) ← receive peer env
    let status ← lift (sendFileReply fresh d)
    if status = .ok then record (.acknowledged f)
    return status

/-- The upload of one file and its backup. A failed backup is only logged. -/
def sendAndBackup (f : UploadFile) : ClientM σ Errors := do
  let status ← ssdsSendFile peer env f
  if status = .ok then
    record (.copied f)
    modify fun r =>
      let c := (copyFile (env.copy f) (r.machine.original f) (r.machine.backup f)).2
      { r with machine := { r.machine with backup := Function.update r.machine.backup f c } }
  return status

/-- A yes-or-no question. -/
def ask : ClientM σ Answer := do
  let (ans, stdin) ← lift (ssdsQuestion false (← get).stdin)
  modify fun r => { r with stdin }
  return ans

/-- What a known client does about one file: `some status` ends the run with `status`. -/
def sendChanged (f : UploadFile) : ClientM σ (Option Errors) := do
  let m := (← get).machine
  if compareFiles (m.original f) (m.backup f) = .ok then return none
  else
    if (← ask) = .no then return some .ok
    else
      let status ← sendAndBackup peer env f
      return if status = .ok then none else some status

/-- What a new client does about one file. -/
def sendFirst (f : UploadFile) : ClientM σ (Option Errors) := do
  let status ← sendAndBackup peer env f
  return if status = .ok then none else some status

/-- The part of `main` that checks the client's id. -/
def checkId : ClientM σ (Option Errors) := do
  let send := if (← get).machine.id = none then sendFirst peer env else sendChanged peer env
  match ← send .solv with
  | some status => return some status
  | none => send .yum

/-- The message of `ssds_send_repo`. -/
def repoMessage (repos : List RepoEntry) (pkgs : List String) (action : Code) :
    Except Halt SsdsJsonCreate := do
  let json ← repos.foldlM (fun json r => ssdsJsCrAddRepo json r.urls r.name r.type)
    (ssdsJsCrInit action)
  pkgs.foldlM ssdsJsCrAddPackage json

/-- `ssds_send_repo` -/
def ssdsSendRepo (action : Code) : ClientM σ Errors := do
  match env.repos with
  | none => return .repoError
  | some repos =>
    let json ← lift (repoMessage repos env.pkgs action)
    record (.request action)
    modify fun r => { r with conn := peer.write (ssdsJsCrToString json) r.conn }
    return .ok

/-- One command: the request, the check of the repositories and the answer. -/
def requestCommand (action : Code) : ClientM σ ℤ := do
  let status ← ssdsSendRepo peer env action
  if status ≠ .ok then return status.num
  else
    let (fresh, d) ← receive peer env
    let _ ← lift (ssdsCheckRepo fresh d)
    let (fresh, d) ← receive peer env
    let a ← lift (ssdsAnswerProcess env.lr env.rpm (← get).stdin fresh d)
    modify fun r => { r with stdin := a.stdin, answer := some a }
    return a.rc

/-- The code of the request for each command. The check of dependencies makes none. -/
def Command.action : Command → Option Code
  | install => some .getInstall
  | update => some .getUpdate
  | erase => some .getErase
  | chkDep => none
  | updateAll => some .getUpdateAll

/-- An update without packages is an update of all. -/
def ClientEnv.effective (env : ClientEnv) : Command :=
  if env.pkgs = [] ∧ env.command = .update then .updateAll else env.command

/-- `main`, connected to the server. -/
def clientMain : ClientM σ ℤ := do
  match ← checkId peer env with
  | some status => return status.num
  | none =>
    match env.effective.action with
    | none => return Errors.ok.num
    | some action => requestCommand peer env action

end

end Rds
