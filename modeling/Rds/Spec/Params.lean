import Rds.Lib.Getopt
import Rds.Spec.CfgParsing

/-!
# The command line of the client (`params.c`)

`parse_params_cl` on its first call, with the `getopt_long` of the GNU C library. The table of long
options is what the source has: five entries, and none without a name behind them.
-/

namespace Rds

open Getopt

/-! ## The options -/

/-- `PAR_INSTALL` -/
def parInstall : ℤ := 1

/-- `PAR_CHK_DEP` -/
def parChkDep : ℤ := 2

/-- `PAR_UPDATE` -/
def parUpdate : ℤ := 3

/-- `PAR_ERASE` -/
def parErase : ℤ := 4

/-- The flag of the commands, `param_opt`. Nobody reads it. -/
def paramOpt : ℕ := 0

def longOptions : List LongOption := [
  ⟨some (text ['i', 'n', 's', 't', 'a', 'l', 'l']), some paramOpt, parInstall⟩,
  ⟨some (text ['c', 'h', 'k', 'd', 'e', 'p']), some paramOpt, parChkDep⟩,
  ⟨some (text ['u', 'p', 'd', 'a', 't', 'e']), some paramOpt, parUpdate⟩,
  ⟨some (text ['e', 'r', 'a', 's', 'e']), some paramOpt, parErase⟩,
  ⟨some (text ['h', 'e', 'l', 'p']), none, 104⟩]

/-- `vhd` -/
def shortOptions : Arg := text ['v', 'h', 'd']

/-! ## Parsing -/

structure ParamOptsCl where
  command : ℤ
  pkgCount : ℤ
  pkgs : List Arg
  deriving DecidableEq, Repr

def initParamsCl : ParamOptsCl := ⟨-1, 0, []⟩

/-- The variables of `parse_params_cl`, and what `set_verbose` and `set_debug` set. -/
structure ParseState where
  getopt : Getopt.State
  params : ParamOptsCl
  seen : ℤ
  verbose : Bool
  debug : Bool
  deriving DecidableEq, Repr

/-- It returns, or the program ends after the help. -/
inductive ParseEnd
  | returned (ret : ℤ) (st : ParseState)
  | exited
  deriving DecidableEq, Repr

/-- The arguments from `optind` on. -/
def appendPkgs : List Arg → ParamOptsCl → ParamOptsCl
  | [], params => params
  | arg :: args, params =>
    appendPkgs args { params with
      pkgs := params.pkgs ++ [arg]
      pkgCount := params.pkgCount + 1 }

/-- What is behind the loop. -/
def endOfParsing (st : ParseState) : ParseEnd :=
  if 1 < st.seen then .returned (-1) st
  else if st.seen = 0 then .returned 3 st
  else .returned 0 { st with
    params := appendPkgs (st.getopt.argv.drop st.getopt.optind) st.params }

/-- The loop of `parse_params_cl`. -/
def parseLoop : ℕ → ParseState → Except Halt ParseEnd
  | 0, _ => .error .fuel
  | fuel + 1, st =>
    match getoptLong shortOptions longOptions st.getopt with
    | none => .error .crash
    | some (c, getopt) =>
      let st := { st with getopt := getopt }
      if c = 0 then
        match longOptions[getopt.longind]? with
        | none => .error .crash
        | some p =>
          parseLoop fuel { st with
            params := { st.params with command := p.val }
            seen := st.seen + 1 }
      else if c = 104 then .ok .exited
      else if c = 118 then parseLoop fuel { st with verbose := true }
      else if c = 100 then parseLoop fuel { st with debug := true }
      else if c = wrong then .ok (.returned (-1) st)
      else if c = -1 then .ok (endOfParsing st)
      else parseLoop fuel st

/-- As many calls as there can be: one for each character, and one for the end. -/
def parseSteps (argv : List Arg) : ℕ := argv.flatten.length + 1

/-- `parse_params_cl` -/
def parseParamsCl (argv : List Arg) (params : ParamOptsCl) : Except Halt ParseEnd :=
  let st : ParseState := ⟨.initial argv, params, 0, false, false⟩
  if argv.length = 1 then .ok (.returned 2 st)
  else parseLoop (parseSteps argv) st

end Rds
