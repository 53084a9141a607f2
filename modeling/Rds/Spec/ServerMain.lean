import Rds.Spec.Params
import Rds.Spec.Server

/-!
# The server's `main` (`server_main.c`, `params.c`, `server.c`)

The command line, the listening socket, and one client after the other.
-/

namespace Rds

open Getopt

/-! ## The command line -/

/-- What `set_verbose` and `set_debug` set. -/
structure LogLevel where
  verbose : Bool
  debug : Bool
  deriving DecidableEq, Repr

/-- It returns, or the program ends after the help. -/
inductive SrvParams
  | parsed (log : LogLevel)
  | exited (code : ℤ)
  deriving DecidableEq, Repr

/-- `EXIT_SUCCESS` -/
def exitSuccess : ℤ := 0

/-- The loop of `parse_params_srv`. -/
def parseSrvLoop : ℕ → Getopt.State → LogLevel → Except Halt SrvParams
  | 0, _, _ => .error .fuel
  | fuel + 1, st, log =>
    match getopt shortOptions st with
    | (opt, st) =>
      if opt = -1 then .ok (.parsed log)
      else if opt = 118 then parseSrvLoop fuel st { log with verbose := true }
      else if opt = 104 then .ok (.exited exitSuccess)
      else if opt = 100 then parseSrvLoop fuel st { log with debug := true }
      else .ok (.exited Errors.paramsError.num)

/-- `parse_params_srv` -/
def parseParamsSrv (argv : List Arg) : Except Halt SrvParams :=
  parseSrvLoop (parseSteps argv) (.initial argv) ⟨false, false⟩

/-! ## The listening socket -/

/-- What the system answers while the server is set up. -/
structure ServerHost where
  /-- The configuration, `none` when it cannot be opened. -/
  cfg : Option (List Byte)
  socket : Bool
  /-- Whether `bind` succeeds, by the port. -/
  bind : ℤ → Bool
  setsockopt : Bool
  listen : Bool

/-- The port `htons` makes of a number. -/
def htons (n : ℤ) : ℤ := n % 2 ^ 16

/-- `ssds_server_init`. The first `setsockopt` is not checked. -/
def ssdsServerInit (host : ServerHost) : Except Halt Errors :=
  if !host.socket then return .socketError
  else do
    let (_, commPort) ← readSrvCfg host.cfg
    if !host.bind (htons commPort) then return .socketError
    else if !host.setsockopt then return .socketError
    else if !host.listen then return .socketError
    else return .ok

/-! ## Clients -/

/-- The program has ended, or it waits for the next client. -/
inductive ServerEnd
  | exited (code : ℤ)
  | waiting (sv : Server)

/-- The loop of `main`, by the clients that come: `none` is an `accept` that fails. -/
def acceptLoop (env : Env) (fuel : ℕ) : List (Option Sock) → Server → Except Halt ServerEnd
  | [], sv => return .waiting sv
  | conn :: conns, sv => do
    let (status, sv) ← ssdsServerAcceptConnection env fuel conn sv
    if status = .exit then return .exited status.num
    else acceptLoop env fuel conns sv

/-- `main` -/
def serverMain (host : ServerHost) (argv : List Arg) (env : Env) (fuel : ℕ)
    (conns : List (Option Sock)) (sv : Server) : Except Halt ServerEnd := do
  match ← parseParamsSrv argv with
  | .exited code => return .exited code
  | .parsed _ =>
    let status ← ssdsServerInit host
    if status ≠ .ok then return .exited status.num
    else acceptLoop env fuel conns sv

end Rds
