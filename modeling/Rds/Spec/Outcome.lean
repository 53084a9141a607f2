import Rds.Spec.ClientMain
import Rds.Spec.Server

/-!
# What a request comes to

The purpose of the two programs, with no messages, documents or sockets between them: the
packages a client names are looked up in its repositories, a goal is solved for them, and the
user decides what is done about the lists of the goal.
-/

namespace Rds

/-- A repository with a name, as the client adds it. -/
def SsdsRepoInfo.entry (r : SsdsRepoInfo) : RepoEntry where
  urls := r.urls
  name := some r.name
  type := r.type

/-- The names that are looked up. One name is taken as it is; of more, or none, the list goes on
with what the slot behind them holds. -/
def heardNames (slot : Ptr String) : List String → Except Halt (List String)
  | [name] => .ok [name]
  | names =>
    match slot with
    | .good s => .ok (names ++ [s])
    | .null => if names = [] then .error .crash else .ok names
    | .wild => .error .crash

/-- The lists of the goal, if they are told: every run of it has to succeed, but the one for an
update of all, and the register must not hold -1. -/
def solvedGoal (hy : Hawkey) (reg : ℤ) (operation : Code) (names : List String) (sack : HySack) :
    Option HySolution :=
  if reg = -1 then none
  else if operation = .getUpdateAll then some (hy.solution [.upgradeAll])
  else
    let plist := selectPkgs hy names sack
    if ∀ k < plist.length, hy.goalRun k = 0 then
      some (hy.solution (plist.flatMap (goalJob operation)))
    else none

namespace Env

variable (env : Env) (tick : ℕ) (cache : Cache)

/-- The metadata at hand for some repositories, and the cache after that. -/
def locate (repos : List SsdsRepoInfo) : Cache × List SsdsMetadataFilesLoc :=
  ssdsLocateRepoMetadata cache (repos.zipIdx.map fun r => (r.1, env.download tick r.2))

/-- The names that are looked up for a request. An update of all has none. -/
def requested (operation : Code) (pkgs : List String) : Except Halt (List String) :=
  if operation = .getUpdateAll then .ok [] else heardNames (env.slots tick pkgs.length) pkgs

/-- The decision about a request. -/
def resolve (operation : Code) (pkgs : List String) (repos : List SsdsRepoInfo) :
    Except Halt (Option HySolution) := do
  let names ← env.requested tick operation pkgs
  let sack := env.sack tick (ssdsFillSack (env.locate tick cache repos).2)
  return solvedGoal (env.hawkey tick) (env.reg tick) operation names sack

end Env

/-- The packages of a list as the client works on them: from the last to the first. -/
def answerCells (pkgs : List HyPackage) : List (Option SsdsJsonPkg) :=
  none :: pkgs.reverse.map fun p =>
    some { pkgName := some p.name, pkgLoc := p.location, baseUrl := p.baseurl,
           metalink := if p.baseurl = none then some p.reponame else none }

/-- What the client does about the decision: it asks if there is anything to do, and downloads
and installs what the user agrees to. -/
def carryOut (lr : Librepo) (rpm : Rpm) (stdin : List Char) :
    Option HySolution → Except Halt AnswerResult
  | none => .ok { rc := Code.answerNoDep.num, stdin, download := none }
  | some goal =>
    if goal.installs = [] ∧ goal.upgrades = [] ∧ goal.erasures = [] ∧ goal.obsoleted = [] then
      .ok { rc := Code.answerOk.num, stdin, download := none }
    else do
      let onlyErases := goal.installs = [] ∧ goal.upgrades = [] ∧ goal.erasures ≠ []
      let (answer, stdin) ← ssdsQuestion (!onlyErases) stdin
      if answer = .no then return { rc := Code.answerOk.num, stdin, download := none }
      else
        let d ← ssdsDownload lr rpm answer (answerCells goal.installs)
          (answerCells goal.upgrades) (answerCells goal.erasures)
        return { rc := d.rc, stdin, download := some d }

/-- A request from the decision on: the client's value, and what is typed after it. -/
def Env.outcome (env : Env) (tick : ℕ) (cache : Cache) (operation : Code) (cenv : ClientEnv)
    (repos : List SsdsRepoInfo) (stdin : List Char) : Except Halt AnswerResult := do
  let goal ← env.resolve tick cache operation cenv.pkgs repos
  carryOut cenv.lr cenv.rpm stdin goal

end Rds
