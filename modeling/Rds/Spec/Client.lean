import Rds.Spec.JsonCreate
import Rds.Spec.JsonRead
import Rds.Spec.Packages

/-!
# The client's functions (`client.c`)

Uploads, the comparison with the backup, the question to the user, and what the client
does with a server's answer. A reply comes as what became of it (`Delivery`), and the
reader it is parsed into as it was allocated (`fresh`). Logging is left out, the texts
it needs are not: reading them can crash.
-/

namespace Rds

/-! ## Uploads -/

/-- The header of an upload: its code and the size of the file as an `int`. -/
def sendFileHeader (f : UploadFile) (size : ℕ) : SsdsJsonCreate :=
  ssdsJsCrSetReadBytes (ssdsJsCrInit f.code) (toInt size)

/-- The length of the buffer the file is read into. -/
def freadSize : ℕ := 131072

/-- The loop that reads the file and writes it out, as the writes it makes. -/
def sendFileLoop (file : List Byte) : List (List Byte) :=
  if file = [] then []
  else file.take freadSize :: sendFileLoop (file.drop freadSize)
termination_by file.length
decreasing_by
  have : 0 < file.length := List.length_pos_iff.2 ‹_›
  simp only [List.length_drop, freadSize]; omega

/-- The writes of `ssds_send_file`. `print` is json-glib's generator. -/
def sendFileWrites (print : Json → List Byte) (f : UploadFile) (file : List Byte) :
    List (List Byte) :=
  print (ssdsJsCrToString (sendFileHeader f file.length)) :: sendFileLoop file

/-- The end of `ssds_send_file`, from the reply on. -/
def sendFileReply (fresh : SsdsJsonRead) (d : Delivery) : Except Halt Errors := do
  let json := (d.parse fresh).2
  let rc ← ssdsJsRdGetCode json
  if rc ≠ Code.answerOk.num then
    let _ ← ssdsJsRdGetMessage json
    return .networkingError
  else return .ok

/-! ## The backup -/

/-- `fgetc` into a `char`: the end of the file reads as byte 255 does. -/
def fgetcChar : List Byte → Byte × List Byte
  | [] => (255, [])
  | b :: bs => (b, bs)

/-- The loop of `compare_files`: whether it ends on equal characters. -/
def compareLoop : List Byte → List Byte → Bool
  | [], f2 => (fgetcChar f2).1 = 255
  | ch1 :: f1, f2 =>
    let (ch2, f2) := fgetcChar f2
    if ch1 ≠ 255 ∧ ch2 ≠ 255 ∧ ch1 = ch2 then compareLoop f1 f2 else ch1 = ch2

/-- `compare_files`: `none` is a file that cannot be opened. -/
def compareFiles (fileOne fileTwo : Option (List Byte)) : Errors :=
  match fileOne, fileTwo with
  | some f1, some f2 => if compareLoop f1 f2 then .ok else .fileError
  | _, _ => .fileError

/-- How a copy goes: whether the destination can be opened, and which bytes are stored. -/
structure CopyOutcome where
  opens : Bool
  stores : ℕ → Bool

/-- `copy_file`: its value, and the destination. Opening it empties it, before the source
is known to be there. -/
def copyFile (out : CopyOutcome) (source destination : Option (List Byte)) :
    Errors × Option (List Byte) :=
  let opened := if out.opens then some [] else destination
  match source with
  | none => (.fileError, opened)
  | some s =>
    if out.opens then (.ok, some ((s.zipIdx.filter fun b => out.stores b.2).map Prod.fst))
    else (.fileError, opened)

/-! ## The user -/

/-- The answers to a question. -/
inductive Answer
  | yes
  | no
  | download
  deriving DecidableEq, Repr

/-- `ssds_question`, on what the user types. After an answer it does not know it drops one
more character, the end of the line; with nothing typed it waits. -/
def ssdsQuestion (offerDownload : Bool) : List Char → Except Halt (Answer × List Char)
  | [] => .error .blocked
  | 'y' :: stdin => .ok (.yes, stdin)
  | 'n' :: stdin => .ok (.no, stdin)
  | c :: stdin =>
    if c = 'd' ∧ offerDownload then .ok (.download, stdin)
    else
      match stdin with
      | [] => .error .blocked
      | _ :: stdin => ssdsQuestion offerDownload stdin

/-! ## Carrying an answer out -/

/-- `LrPackageTarget`: where it is downloaded from, then what came of it. -/
structure LrPackageTarget where
  metalink : Option String
  relativeUrl : Option String
  baseUrl : Option String
  cbdata : Option String
  err : Option String
  localPath : Option String
  deriving DecidableEq, Repr

/-- What librepo does with the `i`-th target of the `k`-th call, and whether that call
succeeds. -/
structure Librepo where
  err : ℕ → ℕ → Option String
  localPath : ℕ → ℕ → Option String
  succeeds : ℕ → Bool

/-- The target for one package. -/
def newTarget (inst : SsdsJsonPkg) : LrPackageTarget where
  metalink := inst.metalink
  relativeUrl := inst.pkgLoc
  baseUrl := inst.baseUrl
  cbdata := inst.pkgName
  err := none
  localPath := none

/-- A list of packages behind its first cell, as the loops `for (i = 1; …)` walk it. A cell
that holds nothing crashes them. -/
def pkgCells : List (Option SsdsJsonPkg) → Except Halt (List SsdsJsonPkg)
  | [] => .ok []
  | none :: _ => .error .crash
  | some pkg :: rest => do return pkg :: (← pkgCells rest)

/-- The loop that prepares the targets of one list. -/
def downloadTargets (pkgs : List (Option SsdsJsonPkg)) : Except Halt (List LrPackageTarget) := do
  return (← pkgCells (pkgs.drop 1)).map newTarget

/-- `lr_download_packages`, the `k`-th call. -/
def lrDownloadPackages (lr : Librepo) (k : ℕ) (targets : List LrPackageTarget) :
    Bool × List LrPackageTarget :=
  (lr.succeeds k,
    targets.mapIdx fun i t => { t with err := lr.err k i, localPath := lr.localPath k i })

/-- A loop of `ssds_rpm_process` over downloaded packages: the error it stops with, if any. -/
def addTargets (rpm : Rpm) (action : SsdsAction) (error : Errors) :
    List LrPackageTarget → Rpmts → Option Errors × Rpmts
  | [], ts => (none, ts)
  | target :: rest, ts =>
    match target.err with
    | some _ => (some error, ts)
    | none => addTargets rpm action error rest (ssdsAddToTransaction rpm ts target.localPath action).2

/-- The loop of `ssds_rpm_process` over the packages to erase. A cell that holds nothing
crashes it. -/
def addErases (rpm : Rpm) : List (Option SsdsJsonPkg) → Rpmts → Except Halt (Option Errors × Rpmts)
  | [], ts => return (none, ts)
  | none :: _, _ => .error .crash
  | some pkg :: rest, ts =>
    let (rc, ts) := ssdsAddToErase rpm ts pkg.pkgName
    if rc ≠ Errors.ok.num then return (some .eraseError, ts) else addErases rpm rest ts

/-- What `ssds_rpm_process` leaves behind: its value, the transaction set and whether
`rpmtsRun` was called on it. -/
structure RpmResult where
  rc : ℤ
  ts : Rpmts
  ran : Bool
  deriving DecidableEq, Repr

/-- The value at `rpmEnd` after a loop stopped with an error. -/
def RpmResult.stop (e : Errors) (ts : Rpmts) : RpmResult := { rc := e.num, ts, ran := false }

/-- `ssds_rpm_process` -/
def ssdsRpmProcess (rpm : Rpm) (install update : List LrPackageTarget)
    (erase : List (Option SsdsJsonPkg)) : Except Halt RpmResult :=
  match addTargets rpm .ssdsInstall .installError install rpmtsCreate with
  | (some e, ts) => return .stop e ts
  | (none, ts) =>
    match addTargets rpm .ssdsUpdate .updateError update ts with
    | (some e, ts) => return .stop e ts
    | (none, ts) => do
      match ← addErases rpm (erase.drop 1) ts with
      | (some e, ts) => return .stop e ts
      | (none, ts) => return { rc := rpm.run, ts, ran := true }

/-- What `ssds_download` leaves behind: its value, the targets it prepared, and what
`ssds_rpm_process` did if it was called. -/
structure DownloadResult where
  rc : ℤ
  install : List LrPackageTarget
  update : List LrPackageTarget
  rpm : Option RpmResult
  deriving DecidableEq, Repr

/-- `ssds_download` -/
def ssdsDownload (lr : Librepo) (rpm : Rpm) (answer : Answer)
    (install update erase : List (Option SsdsJsonPkg)) : Except Halt DownloadResult := do
  let installList ← downloadTargets install
  let updateList ← downloadTargets update
  let (okInstall, install) := lrDownloadPackages lr 0 installList
  if !okInstall then
    return { rc := Errors.downloadError.num, install, update := updateList, rpm := none }
  else
    let (okUpdate, update) := lrDownloadPackages lr 1 updateList
    if !okUpdate then return { rc := Errors.downloadError.num, install, update, rpm := none }
    else if answer = .download then
      return { rc := Errors.ok.num, install, update, rpm := none }
    else
      let r ← ssdsRpmProcess rpm install update erase
      return { rc := r.rc, install, update, rpm := some r }

/-! ## The answer to a request -/

/-- `ssds_check_repo`: its value and `*message`. -/
def ssdsCheckRepo (fresh : SsdsJsonRead) (d : Delivery) : Except Halt (ℤ × Option String) := do
  let json := (d.parse fresh).2
  let rc ← ssdsJsRdGetCode json
  if rc ≠ Code.answerOk.num then return (rc, ← ssdsJsRdGetMessage json) else return (rc, none)

/-- What `ssds_answer_process` leaves behind: its value, what the user has still typed, and
what `ssds_download` did if it was called. -/
structure AnswerResult where
  rc : ℤ
  stdin : List Char
  download : Option DownloadResult
  deriving DecidableEq, Repr

/-- `ssds_answer_process` from the counts on. -/
def answerPackages (lr : Librepo) (rpm : Rpm) (stdin : List Char) (rc : ℤ) (json : SsdsJsonRead) :
    Except Halt AnswerResult := do
  let numInstall ← ssdsJsRdGetCount json "install"
  let numUpdate ← ssdsJsRdGetCount json "upgrade"
  let numErase ← ssdsJsRdGetCount json "erase"
  let numObsolete ← ssdsJsRdGetCount json "obsolete"
  if numInstall = 0 ∧ numUpdate = 0 ∧ numErase = 0 ∧ numObsolete = 0 then
    return { rc, stdin, download := none }
  else
    let installPkgs ← ssdsJsRdParseAnswer "install" json
    let updatePkgs ← ssdsJsRdParseAnswer "upgrade" json
    let erasePkgs ← ssdsJsRdParseAnswer "erase" json
    let (ans, stdin) ←
      ssdsQuestion (!(numInstall = 0 ∧ numUpdate = 0 ∧ numErase ≠ 0)) stdin
    if ans = .no then return { rc, stdin, download := none }
    else
      let d ← ssdsDownload lr rpm ans installPkgs updatePkgs erasePkgs
      return { rc := d.rc, stdin, download := some d }

/-- `ssds_answer_process` -/
def ssdsAnswerProcess (lr : Librepo) (rpm : Rpm) (stdin : List Char) (fresh : SsdsJsonRead)
    (d : Delivery) : Except Halt AnswerResult :=
  match d with
  | .lost => return { rc := Errors.networkingError.num, stdin, download := none }
  | d =>
    match d.parse fresh with
    | (0, _) => return { rc := Errors.jsonError.num, stdin, download := none }
    | (_, json) => do
      let rc ← ssdsJsRdGetCode json
      if rc = Code.answerWarning.num ∨ rc = Code.answerError.num then
        let _ ← ssdsJsRdGetMessage json
        return { rc, stdin, download := none }
      else if rc = Code.answerNoDep.num then return { rc, stdin, download := none }
      else answerPackages lr rpm stdin rc json

end Rds
