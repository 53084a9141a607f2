import Rds.Spec.JsonCreate
import Rds.Spec.RepoMetadata

/-!
# Solving (`solving.c`)

`ssds_dep_query` ends without a `return` on every path but one; the model says so by
returning `none` there, and its caller gets whatever the return register holds.
-/

namespace Rds

/-- A repository as `ssds_fill_sack` hands it to hawkey. -/
structure HyRepo where
  mdFn : String
  primaryFn : String
  filelistsFn : String
  name : Option String
  deriving DecidableEq, Repr

/-- `ssds_fill_sack`: the repositories it loads, in order. -/
def ssdsFillSack (list : List SsdsMetadataFilesLoc) : List HyRepo :=
  list.map fun file =>
    { mdFn := file.repomd ++ "/repodata/repomd.xml", primaryFn := file.primary,
      filelistsFn := file.filelists, name := file.repoName }

/-- The names a NULL-terminated array holds from slot `i` on, at most `n` of them. -/
def namesFrom (request : ℕ → Ptr String) : ℕ → ℕ → Except Halt (List String)
  | 0, _ => .ok []
  | n + 1, i =>
    match request i with
    | .null => .ok []
    | .wild => .error .crash
    | .good s => do return s :: (← namesFrom request n (i + 1))

/-- The names the query is filtered by: the whole array, up to its terminator, or its
first slot. The decoder stores a `NULL` in slot `pkg_count + 1`, so reading stops. -/
def requestNames (request : ℕ → Ptr String) (pkgCount : ℕ) : Except Halt (List String) :=
  if pkgCount > 1 then namesFrom request (pkgCount + 2) 0
  else
    match request 0 with
    | .good s => .ok [s]
    | _ => .error .crash

/-- The query part of `ssds_dep_query`: the exact matches or, if there are none, the
pattern matches, of the latest version per architecture. -/
def selectPkgs (hy : Hawkey) (names : List String) (sack : HySack) : List HyPackage :=
  let plist := hy.filterName .eq names sack
  latestPerArch (if plist.length = 0 then hy.filterName .glob names sack else plist)

/-- The job for one package. -/
def goalJob (operation : Code) (pkg : HyPackage) : List HyJob :=
  match operation with
  | .getInstall => [.install pkg]
  | .getUpdate => [.upgradeTo pkg]
  | .getErase => [.erase pkg]
  | _ => []

/-- The goal, and the results of the runs made on it so far. -/
structure GoalState where
  goal : HyGoal
  runs : List ℤ
  deriving DecidableEq, Repr

/-- `hy_goal_run` -/
def hyGoalRun (hy : Hawkey) (st : GoalState) : GoalState :=
  { st with runs := st.runs ++ [hy.goalRun st.runs.length] }

/-- The loop over the selected packages: `false` when it returned -1. -/
def goalLoop (hy : Hawkey) (operation : Code) : List HyPackage → GoalState → Bool × GoalState
  | [], st => (true, st)
  | pkg :: plist, st =>
    let st := hyGoalRun hy { st with goal := st.goal ++ goalJob operation pkg }
    if st.runs.getLast? = some 0 then goalLoop hy operation plist st else (false, st)

/-- What `ssds_dep_query` leaves behind: its value (`none` when it ends without one), the
answer and the goal. -/
structure DepResult where
  ret : Option ℤ
  answer : SsdsJsonCreate
  goal : GoalState
  deriving DecidableEq, Repr

/-- `ssds_dep_query` -/
def ssdsDepQuery (hy : Hawkey) (request : ℕ → Ptr String) (answer : SsdsJsonCreate) (sack : HySack)
    (operation : Code) (pkgCount : ℕ) : Except Halt DepResult := do
  let goal : GoalState := { goal := [], runs := [] }
  if operation = .getUpdateAll then
    let goal := hyGoalRun hy { goal with goal := [.upgradeAll] }
    let answer ← ssdsJsCrPkgsInsert answer (hy.solution goal.goal)
    return { ret := none, answer, goal }
  else
    let names ← requestNames request pkgCount
    let (done, goal) := goalLoop hy operation (selectPkgs hy names sack) goal
    if done then
      let answer ← ssdsJsCrPkgsInsert answer (hy.solution goal.goal)
      return { ret := none, answer, goal }
    else return { ret := some (-1), answer, goal }

end Rds
