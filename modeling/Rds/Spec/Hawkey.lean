import Rds.Spec.Globvar

/-!
# Packages, queries and goals

What the program sees of hawkey: packages with the fields it reads, the filters of a
query, and a goal as the list of jobs put into it. How a goal is solved is outside the
program and comes as `Hawkey`.
-/

namespace Rds

/-- `HyPackage`; `evr` ranks the versions of a package. -/
structure HyPackage where
  name : String
  arch : String
  evr : ℕ
  location : Option String
  baseurl : Option String
  reponame : String
  deriving DecidableEq, Repr

/-- The package collection a query runs on. -/
abbrev HySack := List HyPackage

/-- How a query compares names. -/
inductive HyCmp
  | eq
  | glob
  deriving DecidableEq, Repr

/-- One job of a goal. -/
inductive HyJob
  | install (pkg : HyPackage)
  | upgradeTo (pkg : HyPackage)
  | erase (pkg : HyPackage)
  | upgradeAll
  deriving DecidableEq, Repr

abbrev HyGoal := List HyJob

/-- The package lists of a solved goal. -/
structure HySolution where
  installs : List HyPackage
  upgrades : List HyPackage
  erasures : List HyPackage
  obsoleted : List HyPackage
  unneeded : List HyPackage

/-- hawkey and libsolv: name patterns, the result of the `k`-th `hy_goal_run`, and the
lists of a goal. -/
structure Hawkey where
  fnmatch : String → String → Bool
  goalRun : ℕ → ℤ
  solution : HyGoal → HySolution

/-- One name against one pattern. -/
def Hawkey.nameMatches (hy : Hawkey) : HyCmp → String → String → Bool
  | .eq, pattern, name => pattern = name
  | .glob, pattern, name => hy.fnmatch pattern name

/-- `hy_query_filter_in` on `HY_PKG_NAME`; with one name it is `hy_query_filter`. -/
def Hawkey.filterName (hy : Hawkey) (cmp : HyCmp) (names : List String) (sack : HySack) :
    List HyPackage :=
  sack.filter fun p => names.any fun n => hy.nameMatches cmp n p.name

/-- `hy_query_filter_latest_per_arch` -/
def latestPerArch (pkgs : List HyPackage) : List HyPackage :=
  pkgs.filter fun p => pkgs.all fun q => !(q.name = p.name && q.arch = p.arch && p.evr < q.evr)

end Rds
