import Mathlib.Data.Int.Notation
import Mathlib.Tactic.Common

/-!
# Encrypted connections (`common/network_security.c`)

The build with `USE_SSL` set to 1. The code keeps three globals: a flag, the context and the
session. What it asks of the TLS library is written down call by call, and what the library
answers is an input. A descriptor is of any type: only which connection it names matters.
-/

namespace Rds

namespace Security

/-- What the build defines: `__CASE_SERVER` or `__CASE_CLIENT`. -/
inductive Side
  | server | client
  deriving DecidableEq, Repr

/-- `SSL_read` or `SSL_write`. -/
inductive Transfer
  | read | write
  deriving DecidableEq, Repr

/-- A call of the library that names a context or a session. Both are numbered as they are
made. -/
inductive TlsCall (Fd : Type)
  /-- `SSL_CTX_new` made it. -/
  | newContext (c : ℕ)
  /-- `SSL_CTX_set_cipher_list` and what `LoadCertificates` calls. -/
  | useContext (c : ℕ)
  | freeContext (c : ℕ)
  /-- `SSL_new` made it, in this context. -/
  | newSession (s c : ℕ)
  | setFd (s : ℕ) (fd : Fd)
  /-- `SSL_connect` or `SSL_accept`, and what it returned. -/
  | handshake (s : ℕ) (ret : ℤ)
  | getPeerCertificate (s : ℕ)
  /-- A transfer, and the descriptor the caller asked it for. -/
  | transfer (kind : Transfer) (s : ℕ) (fd : Fd)
  | freeSession (s : ℕ)
  deriving DecidableEq, Repr

/-- What the library answers in one initialization, as far as it gets. -/
structure Library where
  /-- Whether `SSL_CTX_new` gives a context. -/
  newContext : Bool := true
  setCipherList : ℤ := 1
  useCertificateFile : ℤ := 1
  usePrivateKeyFile : ℤ := 1
  checkPrivateKey : ℤ := 1
  /-- Whether `SSL_new` gives a session. -/
  newSession : Bool := true
  /-- What `SSL_connect` or `SSL_accept` returns: 1 if the handshake was completed, 0 if the
  peer ended it in an orderly way, a negative value if it failed. -/
  handshake : ℤ := 1
  /-- Whether `SSL_get_peer_certificate` gives a certificate. -/
  peerCertificate : Bool := true

/-- The globals of the file, and what was asked of the library so far, the last call first. -/
structure State (Fd : Type) where
  /-- `_ssl_connected`. -/
  sslConnected : Bool := false
  ctx : Option ℕ := none
  ssl : Option ℕ := none
  /-- How many contexts the library made. -/
  contexts : ℕ := 0
  /-- How many sessions the library made. -/
  sessions : ℕ := 0
  calls : List (TlsCall Fd) := []
  /-- A null pointer was handed to the library and the process is gone. -/
  crashed : Bool := false

/-- The library reads through a null pointer. -/
inductive Crash
  | nullPointer
  deriving DecidableEq, Repr

/-- The code that talks to the library. -/
abbrev SecureM (Fd : Type) := ExceptT Crash (StateM (State Fd))

variable {Fd : Type}

def tell (call : TlsCall Fd) : SecureM Fd Unit :=
  modify fun s => { s with calls := call :: s.calls }

/-- A pointer the library is about to read through. -/
def nonNull (p : Option ℕ) : SecureM Fd ℕ :=
  match p with
  | some x => pure x
  | none => throw .nullPointer

/-- `InitCTX`. It stores the new context in the global itself, and what it returns is stored
there again. -/
def initCTX (lib : Library) : SecureM Fd (Option ℕ) := do
  let s ← get
  if lib.newContext then
    set { s with contexts := s.contexts + 1, ctx := some s.contexts }
    tell (.newContext s.contexts)
  else
    set { s with ctx := none }
  let c ← nonNull (← get).ctx
  tell (.useContext c)
  if lib.setCipherList ≠ 1 then
    return none
  return some c

/-- `LoadCertificates`: 0, or -1 at the first step that fails. -/
def loadCertificates (lib : Library) (c : ℕ) : SecureM Fd ℤ := do
  tell (.useContext c)
  if lib.useCertificateFile ≤ 0 then
    return -1
  tell (.useContext c)
  if lib.usePrivateKeyFile ≤ 0 then
    return -1
  tell (.useContext c)
  if lib.checkPrivateKey = 0 then
    return -1
  tell (.useContext c)
  return 0

/-- `ShowCerts`. -/
def showCerts (lib : Library) (ssl : ℕ) : SecureM Fd ℤ := do
  tell (.getPeerCertificate ssl)
  if lib.peerCertificate then
    return 0
  return -1

/-- `SSL_new(ctx)` and `SSL_set_fd(ssl, fd)`. -/
def openSession (lib : Library) (c : ℕ) (fd : Fd) : SecureM Fd ℕ := do
  tell (.useContext c)
  let s ← get
  if lib.newSession then
    set { s with sessions := s.sessions + 1, ssl := some s.sessions }
    tell (.newSession s.sessions c)
  else
    set { s with ssl := none }
  let ssl ← nonNull (← get).ssl
  tell (.setFd ssl fd)
  return ssl

/-- `initialize_secure_connection`: 0, or -1 if a step failed. Nothing is freed here. -/
def initializeSecureConnection (side : Side) (lib : Library) (fd : Fd) : SecureM Fd ℤ := do
  let ctx ← initCTX lib
  modify fun s => { s with ctx := ctx }
  match ctx with
  | none => return -1
  | some c =>
    if side = .server then
      if (← loadCertificates lib c) = -1 then
        return -1
    let ssl ← openSession lib c fd
    tell (.handshake ssl lib.handshake)
    if lib.handshake = -1 then
      return -1
    if (← showCerts lib ssl) = -1 then
      return -1
    return 0

/-- Frees what the globals point to. They keep their values. -/
def freeGlobals : SecureM Fd Unit := do
  let s ← get
  match s.ssl with
  | some ssl => tell (.freeSession ssl)
  | none => pure ()
  match s.ctx with
  | some c => tell (.freeContext c)
  | none => pure ()

/-- What `ssds_read` and `ssds_write` share: a connection is initialized first if there is none,
and `res` is what the library returns for the transfer. -/
def transfer (kind : Transfer) (side : Side) (lib : Library) (fd : Fd) (res : ℤ) :
    SecureM Fd ℤ := do
  if (← get).sslConnected = false then
    if (← initializeSecureConnection side lib fd) = -1 then
      freeGlobals
      return -1
    modify fun s => { s with sslConnected := true }
  let ssl ← nonNull (← get).ssl
  tell (.transfer kind ssl fd)
  return res

/-- `ssds_read`. -/
def ssdsRead : Side → Library → Fd → ℤ → SecureM Fd ℤ := transfer .read

/-- `ssds_write`. -/
def ssdsWrite : Side → Library → Fd → ℤ → SecureM Fd ℤ := transfer .write

/-- `crypted_connection_reset`. -/
def cryptedConnectionReset : SecureM Fd Unit := do
  freeGlobals
  modify fun s => { s with sslConnected := false }

/-- What the rest of the program calls, and what the library answers then. -/
inductive Call (Fd : Type)
  | read (fd : Fd) (lib : Library) (res : ℤ)
  | write (fd : Fd) (lib : Library) (res : ℤ)
  | reset

def Call.run (side : Side) : Call Fd → SecureM Fd Unit
  | .read fd lib res => do
    let _ ← ssdsRead side lib fd res
  | .write fd lib res => do
    let _ ← ssdsWrite side lib fd res
  | .reset => cryptedConnectionReset

/-- One call. A process that is gone makes none. -/
def step (side : Side) (s : State Fd) (call : Call Fd) : State Fd :=
  if s.crashed then s
  else match (call.run side).run.run s with
    | (.ok _, s') => s'
    | (.error _, s') => { s' with crashed := true }

end Security

end Rds
