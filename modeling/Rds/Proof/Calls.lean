import Rds.Proof.ClientStart
import Rds.Proof.Visits

/-!
# Clients and server, from their command lines on

A client that is refused on its own machine never reaches the server. One that gives up on its
connection does: the third call of `connect` may succeed, and the client ends without a word.

* `Call.letsGo_iff`: the two ways a call keeps the server.
* `calls_served_iff`: **the server comes back from a list of calls** exactly if none of them keeps it.
-/

namespace Rds

open Invariant Getopt

variable {env : Env} {fuel : ℕ} {sv : Server} {c : Call}

/-! ## One call -/

/-- The client's files are shorter than a file can be for the client. -/
def ClientHost.Short (host : ClientHost) : Prop :=
  ∀ name file, host.file name = some file → file.length < 2 ^ 31

theorem ClientHost.Short.machine {host : ClientHost} (h : host.Short) (id : Ptr (List Byte))
    (path : Option ResolvedPath) : (host.machine id path).Short := by
  intro f file hf
  cases f with
  | solv => exact h _ _ hf
  | yum => exact h _ _ hf

/-- The server is reached by the third call of `connect`. -/
def ClientHost.Late (host : ClientHost) (serverAddress : List Byte) (port : ℤ) : Prop :=
  ¬ host.Reaches serverAddress port ∧ host.connect serverAddress (htons port) 3 = true

/-- **A call whose messages come through**: the client's program comes to its end, every message of its
session was read as one, and no request was the end of the server. -/
structure Call.Clean (env : Env) (fuel : ℕ) (sv : Server) (c : Call) : Prop where
  short : c.host.Short
  ended : ∃ e, c.ends env fuel sv = .ok e
  session : ∀ cenv result r, c.ends env fuel sv = .ok (.session cenv result r) →
    (∃ code, result = .ok code) ∧ r.conn.intact

/-- What lets the server go: no connection that the client gives up, and a session whose last act the
server answers by ending it. -/
structure Call.LetsGo (env : Env) (fuel : ℕ) (sv : Server) (c : Call) : Prop where
  connect : ∀ val out serverAddress path, Accepted c.host c.args val →
    Finds c.host out serverAddress path → c.host.socket = true → ¬ c.host.Late serverAddress out.commPort
  session : ∀ cenv result r, c.ends env fuel sv = .ok (.session cenv result r) → r.lastAsks = true

/-- The same of one end. -/
def ClientEnd.LetsGo : ClientEnd Duplex → Prop
  | .stopped _ connected => connected = false
  | .session _ _ r => r.lastAsks = true

/-- **The two ways a call keeps the server.** -/
theorem Call.letsGo_iff : c.LetsGo env fuel sv ↔ ∀ e, c.ends env fuel sv = .ok e → e.LetsGo := by
  constructor
  · intro h e he
    have hends := clientProgram_ends he
    cases hends with
    | log => rfl
    | user => rfl
    | help => rfl
    | params => rfl
    | socket => rfl
    | networking hval hfinds hsocket hlost =>
      have hlate := h.connect _ _ _ _ hval hfinds hsocket
      exact Bool.eq_false_of_not_eq_true fun hthird => hlate ⟨hlost, hthird⟩
    | session => exact h.session _ _ _ he
  · intro h
    refine ⟨?_, fun cenv result r he => h _ he⟩
    rintro val out serverAddress path hval hfinds hsocket ⟨hlost, hthird⟩
    have hno := h _ (EndsWith.taken (.networking hval hfinds hsocket hlost))
    have hfalse : c.host.connect serverAddress (htons out.commPort) 3 = false := hno
    rw [hthird] at hfalse
    cases hfalse

/-- A client that says nothing keeps the server. -/
theorem Served.not_silent (hempty : env.load [] = some none) {sv' : Server} :
    ¬ Served env [some ⟨[], true⟩] sv sv' := by
  intro h
  obtain ⟨n, status, hn⟩ := Served.one_iff.1 h
  have hloop : sessionLoop env n { sv with sock := ⟨[], true⟩, clientEnd := false, sent := [] } =
      .ok (status, sv') := hn
  exact sessionLoop_eof hempty rfl rfl hloop

/-- The visit that a session is. -/
theorem Call.Clean.visit (h : c.Clean env fuel sv) {cenv : ClientEnv} {result : Except Halt ℤ}
    {r : ClientRun Duplex} (he : c.ends env fuel sv = .ok (.session cenv result r)) :
    ∃ v : Visit, v.wire = c.wire ∧ v.run env fuel sv = (result, r) ∧ v.Clean env fuel sv := by
  have hends := clientProgram_ends he
  obtain ⟨hcode, hintact⟩ := h.session _ _ _ he
  cases hends with
  | @session val out serverAddress path _ _ _ _ _ _ hrun =>
    refine ⟨⟨c.wire, _, c.host.machine out.clientId path, c.stdin⟩, rfl, hrun,
      h.short.machine _ _, ?_, ?_⟩
    · have hresult := congrArg Prod.fst hrun
      obtain ⟨code, rfl⟩ := hcode
      exact ⟨code, hresult⟩
    · have hconn := congrArg (fun p => p.2.conn.intact) hrun
      exact hconn.trans hintact

/-- **One call** is served exactly if it lets the server go. -/
theorem Call.served_one (hempty : env.load [] = some none) (h : c.Clean env fuel sv) {sv₁ : Server}
    (hsame : SameServer sv sv₁) :
    ((∃ sv₂, Served env (c.comes env fuel sv) sv₁ sv₂) ↔ c.LetsGo env fuel sv) ∧
      ∀ sv₂, Served env (c.comes env fuel sv) sv₁ sv₂ → SameServer (c.leaves env fuel sv) sv₂ := by
  obtain ⟨e, he⟩ := h.ended
  rw [Call.letsGo_iff]
  unfold Call.comes Call.leaves
  have hnone : ((∃ sv₂, Served env [] sv₁ sv₂) ↔ True) ∧
      ∀ sv₂, Served env [] sv₁ sv₂ → SameServer sv sv₂ := by
    refine ⟨⟨fun _ => trivial, fun _ => ⟨sv₁, Served.nil_iff.2 rfl⟩⟩, ?_⟩
    intro sv₂ hserved
    rw [Served.nil_iff.1 hserved]
    exact hsame
  have hall : (∀ e', c.ends env fuel sv = .ok e' → e'.LetsGo) ↔ e.LetsGo := by
    constructor
    · intro h
      exact h e he
    · intro h e' he'
      have heq := Except.ok.inj (he.symm.trans he')
      exact heq ▸ h
  rw [hall, he]
  cases e with
  | stopped code connected =>
    cases connected with
    | false => exact ⟨hnone.1.trans ⟨fun _ => rfl, fun _ => trivial⟩, hnone.2⟩
    | true =>
      have hkept : ∀ sv₂, ¬ Served env [some ⟨[], true⟩] sv₁ sv₂ := fun _ =>
        Served.not_silent hempty
      refine ⟨⟨?_, by intro hlets; cases hlets⟩, fun sv₂ hserved => absurd hserved (hkept sv₂)⟩
      rintro ⟨sv₂, hserved⟩
      exact absurd hserved (hkept sv₂)
  | session cenv result r =>
    obtain ⟨v, hwire, hrun, hclean⟩ := h.visit he
    have hone := Visit.served_one hempty hclean hsame
    unfold Visit.sock Visit.leaves at hone
    rw [hwire, hrun] at hone
    exact hone

/-! ## Call after call -/

/-- **When the server program comes back from whole client programs**, each started, run to its end and
closed. The program waits for the next one exactly if it listens and every call lets it go: the client
stopped on its own machine or before it was connected, or its session ended with a request or an
upload that was refused. -/
theorem calls_served_iff (hempty : env.load [] = some none) (fuel : ℕ) (host : ServerHost) (name : Arg)
    (args : List Arg) (sv : Server) (cs : List Call)
    (hclean : Along (Call.leaves env fuel) (Call.Clean env fuel) sv cs) :
    ((∃ n sv', serverMain host (name :: args) env n (Call.socks env fuel sv cs) sv =
          .ok (.waiting sv')) ↔
        oddOption (optionChars args) = none ∧ host.Listens ∧
          Along (Call.leaves env fuel) (Call.LetsGo env fuel) sv cs) ∧
      ∀ n sv', serverMain host (name :: args) env n (Call.socks env fuel sv cs) sv =
        .ok (.waiting sv') → SameServer (cs.foldl (Call.leaves env fuel) sv) sv' :=
  serverMain_along_iff host name args
    (Served.along_iff _ (fun _ => rfl) (fun _ _ _ => rfl) (Call.served_one hempty) cs rfl hclean)

/-! ## Two calls -/

/-- A client that is new to the server, and whose server answers from the `k`-th call of `connect` on. -/
def hostFrom (k : ℕ) : ClientHost where
  euid := 0
  logFile := true
  cfg := none
  vars := ⟨.null, .null, 0⟩
  hasMemory := true
  uname := none
  junk := none
  solvPath := []
  socket := true
  connect _ _ n := k ≤ n
  file _ := some [7]
  text _ := "a"
  repos _ := some []
  fresh := plainSession.client.fresh
  copy := plainSession.client.copy
  lr := plainLibrepo
  rpm := plainRpm

/-- `rds-client --install emacs` -/
def callFrom (k : ℕ) : Call where
  host := hostFrom k
  name := text ['r', 'd', 's']
  args := [text ['-', '-', 'i', 'n', 's', 't', 'a', 'l', 'l'], text ['e', 'm', 'a', 'c', 's']]
  wire := sessionWire
  stdin := []

theorem callFrom_meanings (k : ℕ) :
    (tokens (callFrom k).args).map optionMeaning = [.command parInstall] := by
  show (tokens (callFrom 0).args).map optionMeaning = [.command parInstall]
  decide

theorem callFrom_accepted (k : ℕ) : Accepted (callFrom k).host (callFrom k).args parInstall where
  log := rfl
  user := rfl
  full := ⟨⟨_, List.mem_cons_self, rfl⟩, Or.inr trivial⟩
  help := by
    rw [callFrom_meanings]
    rintro ⟨front, rest, h, -⟩
    have hmem : Meaning.help ∈ [Meaning.command parInstall] := by
      rw [h]
      simp
    revert hmem
    decide
  command := by
    rw [callFrom_meanings]
    exact ⟨rfl, by decide, by decide⟩

theorem callFrom_finds (k : ℕ) :
    Finds (callFrom k).host ⟨.null, .good defaultAddress, defaultPort⟩ defaultAddress none where
  cfg := ⟨1, rfl⟩
  address := rfl
  path := rfl

theorem hostFrom_short (k : ℕ) : (hostFrom k).Short := by
  intro name file hfile
  cases hfile
  decide

/-- The session of the client that is answered at once. -/
def firstRun : Except Halt ℤ × ClientRun Duplex :=
  (clientMain (Duplex.peer sessionWire sessionEnv 5) plainSession.client).run.run
    ⟨.accept (plainServer ⟨[], false⟩), (hostFrom 1).machine .null none, [], 0, [], none⟩

theorem firstRun_intact : firstRun.2.conn.intact := by decide +kernel

theorem firstRun_code : firstRun.1 = .ok Code.answerNoDep.num := by decide +kernel

theorem firstCall_ends : (callFrom 1).ends sessionEnv 5 (plainServer ⟨[], false⟩) =
    .ok (.session plainSession.client firstRun.1 firstRun.2) :=
  EndsWith.taken (.session (callFrom_accepted 1) (callFrom_finds 1) rfl (Or.inl rfl) rfl)

theorem thirdCall_late : (callFrom 3).host.Late defaultAddress defaultPort := by
  refine ⟨?_, rfl⟩
  rintro (hfirst | hsecond)
  · exact absurd hfirst (by decide)
  · exact absurd hsecond (by decide)

/-- The client that is answered by the third call of `connect` stops. -/
theorem thirdCall_ends (sv : Server) : (callFrom 3).ends sessionEnv 5 sv =
    .ok (.stopped Errors.networkingError.num true) :=
  EndsWith.taken (.networking (callFrom_accepted 3) (callFrom_finds 3) rfl thirdCall_late.1)

theorem twoCalls_clean : Along (Call.leaves sessionEnv 5) (Call.Clean sessionEnv 5)
    (plainServer ⟨[], false⟩) [callFrom 1, callFrom 3] := by
  refine ⟨⟨hostFrom_short 1, ⟨_, firstCall_ends⟩, ?_⟩, ⟨hostFrom_short 3, ⟨_, thirdCall_ends _⟩, ?_⟩, trivial⟩
  · intro cenv result r he
    rw [firstCall_ends] at he
    cases he
    exact ⟨⟨_, firstRun_code⟩, firstRun_intact⟩
  · intro cenv result r he
    rw [thirdCall_ends] at he
    cases he

/-- The second client is told that there is no connection, and the server never comes back. -/
theorem calls_served_iff_third : ¬ ∃ n sv', serverMain openHost [[]] sessionEnv n
    (Call.socks sessionEnv 5 (plainServer ⟨[], false⟩) [callFrom 1, callFrom 3])
      (plainServer ⟨[], false⟩) = .ok (.waiting sv') := by
  intro h
  obtain ⟨-, -, -, hthird, -⟩ := (calls_served_iff rfl 5 openHost [] [] (plainServer ⟨[], false⟩)
    [callFrom 1, callFrom 3] twoCalls_clean).1.1 h
  exact hthird.connect _ _ _ _ (callFrom_accepted 3) (callFrom_finds 3) rfl thirdCall_late

end Rds
