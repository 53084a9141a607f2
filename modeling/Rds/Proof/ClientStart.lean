import Rds.Proof.CfgDecides
import Rds.Proof.Params
import Rds.Spec.ClientProgram

/-!
# How the client's program ends

From the command line to the exit code. The first thing that is wrong decides: the log, the user, the
command line, the socket, or a server that does not answer the first two calls of `connect`.

* `parseParamsCl_taken`: the three ways a command line is taken.
* `clientConnect_eq`: the third call of `connect` makes no difference to the result.
* `client_program_iff`: **the ends of the program**, each under its own condition.
-/

namespace Rds

open Getopt

variable {host : ClientHost} {name : Arg} {args : List Arg}

/-! ## The command line -/

/-- The first option that ends the parsing is the help. -/
theorem HelpRequested.first {ms : List Meaning} (h : HelpRequested ms) :
    ms.find? Meaning.final = some .help := by
  obtain ⟨front, rest, rfl, hfront⟩ := h
  rw [List.find?_append]
  cases hfind : front.find? Meaning.final with
  | none => rfl
  | some m =>
    have hmem := List.mem_of_find?_eq_some hfind
    have hfinal := List.find?_some hfind
    cases m with
    | help => rfl
    | unknown => exact absurd hmem hfront
    | command val => cases hfinal
    | verbose => cases hfinal
    | debug => cases hfinal

/-- What the options ask for: the help, or nothing but one command with its operands. -/
def Taken (ms : List Meaning) (ops : List Arg) (parsed : ParseEnd) : Prop :=
  (HelpRequested ms ∧ parsed = .exited) ∨
    ¬ HelpRequested ms ∧ ∃ ret st, parsed = .returned ret st ∧
      (ret = 0 ↔ ∃ val, OneCommand ms val) ∧
      ∀ val, OneCommand ms val → st.params = ⟨val, ops.length, ops⟩

theorem Judged.taken {ms : List Meaning} {ops : List Arg} {parsed : ParseEnd}
    (hno : ¬ HelpRequested ms) (h : Judged ms ops parsed) : Taken ms ops parsed := by
  obtain ⟨ret, st, rfl, hiff, hparams, -⟩ := h
  exact Or.inr ⟨hno, ret, st, rfl, hiff, fun val hone => hparams val (hiff.2 ⟨val, hone⟩) hone⟩

/-- **How a command line is taken**: the help ends the program, one command is stored with its
operands, anything else is refused. -/
theorem parseParamsCl_taken (name : Arg) (hfull : FullNames (tokens args)) :
    ∃ parsed, parseParamsCl (name :: args) initParamsCl = .ok parsed ∧
      Taken ((tokens args).map optionMeaning) (operands args) parsed := by
  have hscan := Scanning.initial name args
  have hfuel := length_tokens_lt name args
  cases args with
  | nil =>
    have hone (val : ℤ) : ¬ OneCommand [] val := by
      rintro ⟨h, -⟩
      cases h
    have hhelp : ¬ HelpRequested [] := by
      rintro ⟨front, rest, h, -⟩
      simp at h
    have hjudged : Judged [] [] (.returned 2 ⟨.initial [name], initParamsCl, 0, false, false⟩) :=
      .refused (by decide) hone (fun h => absurd h List.not_mem_nil) [] _
    exact ⟨_, rfl, hjudged.taken hhelp⟩
  | cons arg args =>
    have hargc : ¬ (name :: arg :: args).length = 1 := by
      rw [List.length_cons, List.length_cons]
      omega
    unfold parseParamsCl
    simp only
    rw [if_neg hargc]
    have hends : LoopEnds (parseSteps (name :: arg :: args))
        ⟨.initial (name :: arg :: args), initParamsCl, 0, false, false⟩
        ((tokens (arg :: args)).map optionMeaning) (operands (arg :: args)) :=
      parseLoop_run hfull hscan hfuel
    by_cases hhelp : HelpRequested ((tokens (arg :: args)).map optionMeaning)
    · have hloop := hends
      unfold LoopEnds at hloop
      rw [hhelp.first] at hloop
      exact ⟨_, hloop, Or.inl ⟨hhelp, rfl⟩⟩
    · obtain ⟨parsed, hparsed, hjudged⟩ := hends.judged rfl rfl
      exact ⟨parsed, hparsed, (hjudged hhelp).taken hhelp⟩

/-- An option without its full name is looked for behind the table. -/
theorem parseParamsCl_behind (name : Arg) (hshort : ¬ FullNames (tokens args)) :
    parseParamsCl (name :: args) initParamsCl = .error .crash := by
  have hscan := Scanning.initial name args
  have hfuel := length_tokens_lt name args
  cases args with
  | nil => exact absurd trivial hshort
  | cons arg args =>
    have hargc : ¬ (name :: arg :: args).length = 1 := by
      rw [List.length_cons, List.length_cons]
      omega
    unfold parseParamsCl
    simp only
    rw [if_neg hargc]
    exact parseLoop_reads_behind hshort hscan hfuel

/-! ## The connection -/

namespace ClientHost

/-- **The loop of `client_connect`** calls `connect` up to three times. -/
theorem connectLoop_eq (connect : ℕ → Bool) : connectLoop connect 3 1 =
    .ok (if connect 1 then (1, true) else if connect 2 then (2, true) else (3, connect 3)) := by
  cases h1 : connect 1 <;> cases h2 : connect 2 <;> simp [connectLoop, h1, h2]

/-- The server is reached in the first two calls. -/
def Reaches (host : ClientHost) (serverAddress : List Byte) (port : ℤ) : Prop :=
  host.connect serverAddress (htons port) 1 = true ∨ host.connect serverAddress (htons port) 2 = true

/-- **A third call that succeeds** leaves a connection behind and counts as a failure. -/
theorem clientConnect_eq (host : ClientHost) (hsocket : host.socket = true) (serverAddress : List Byte)
    (port : ℤ) :
    (host.Reaches serverAddress port ∧ host.clientConnect serverAddress port = .ok (.ok, true)) ∨
      (¬ host.Reaches serverAddress port ∧ host.clientConnect serverAddress port =
        .ok (.networkingError, host.connect serverAddress (htons port) 3)) := by
  unfold Reaches clientConnect
  rw [connectLoop_eq]
  simp only [hsocket, Bool.not_true, Bool.false_eq_true, if_false, bind, Except.bind]
  cases h1 : host.connect serverAddress (htons port) 1 with
  | true => simp [pure, Except.pure]
  | false =>
    cases h2 : host.connect serverAddress (htons port) 2 with
    | true => simp [pure, Except.pure]
    | false => simp [pure, Except.pure]

/-- Without a socket nothing is called. -/
theorem clientConnect_socket (host : ClientHost) (hsocket : host.socket = false)
    (serverAddress : List Byte) (port : ℤ) :
    host.clientConnect serverAddress port = .ok (.socketError, false) := by
  unfold clientConnect
  rw [hsocket]
  rfl

end ClientHost

/-! ## The ends of the program -/

variable {σ : Type}

/-- What `main` reads before it connects: the configuration, which names a server, and the path. -/
structure Finds (host : ClientHost) (out : CfgOut) (serverAddress : List Byte)
    (path : Option ResolvedPath) : Prop where
  cfg : ∃ rc, readCfg host.cfg host.vars = .ok (rc, out)
  address : out.address = .good serverAddress
  path : ssdsResolveDependencyFilePath host.hasMemory host.uname host.junk = .ok path

/-- The client's program comes to what follows its parameters. -/
structure Accepted (host : ClientHost) (args : List Arg) (val : ℤ) : Prop where
  log : host.logFile = true
  user : host.euid = 0
  full : FullNames (tokens args)
  help : ¬ HelpRequested ((tokens args).map optionMeaning)
  command : OneCommand ((tokens args).map optionMeaning) val

/-- **The ends of the client's program**, each with what brings it about. -/
inductive EndsWith (host : ClientHost) (args : List Arg) (peer : Peer σ) (conn : σ)
    (stdin : List Char) : ClientEnd σ → Prop
  | log : host.logFile = false →
      EndsWith host args peer conn stdin (.stopped exitFailure false)
  | user : host.logFile = true → host.euid ≠ 0 →
      EndsWith host args peer conn stdin (.stopped Errors.rootError.num false)
  | help : host.logFile = true → host.euid = 0 → FullNames (tokens args) →
      HelpRequested ((tokens args).map optionMeaning) →
      EndsWith host args peer conn stdin (.stopped exitSuccess false)
  | params : host.logFile = true → host.euid = 0 → FullNames (tokens args) →
      ¬ HelpRequested ((tokens args).map optionMeaning) →
      (∀ val, ¬ OneCommand ((tokens args).map optionMeaning) val) →
      EndsWith host args peer conn stdin (.stopped Errors.paramsError.num false)
  | socket {val out serverAddress path} : Accepted host args val →
      Finds host out serverAddress path → host.socket = false →
      EndsWith host args peer conn stdin (.stopped Errors.socketError.num false)
  | networking {val out serverAddress path} : Accepted host args val →
      Finds host out serverAddress path → host.socket = true →
      ¬ host.Reaches serverAddress out.commPort →
      EndsWith host args peer conn stdin (.stopped Errors.networkingError.num
        (host.connect serverAddress (htons out.commPort) 3))
  | session {val out serverAddress path result r} : Accepted host args val →
      Finds host out serverAddress path → host.socket = true →
      host.Reaches serverAddress out.commPort →
      (clientMain peer (host.env ⟨val, (operands args).length, operands args⟩ path)).run.run
        ⟨conn, host.machine out.clientId path, stdin, 0, [], none⟩ = (result, r) →
      EndsWith host args peer conn stdin
        (.session (host.env ⟨val, (operands args).length, operands args⟩ path) result r)

/-- The configuration is read, and names a server. -/
theorem readCfg_address (cfg : Option (List Byte)) (vars : CfgOut) :
    ∃ rc out serverAddress, readCfg cfg vars = .ok (rc, out) ∧ out.address = .good serverAddress := by
  cases cfg with
  | none => exact ⟨1, _, defaultAddress, readCfg_none vars, rfl⟩
  | some file =>
    obtain ⟨r, -, hr⟩ := readCfg_reads file
    exact ⟨0, r.out, r.address.getD defaultAddress, hr vars, rfl⟩

variable {peer : Peer σ} {conn : σ} {stdin : List Char} {e : ClientEnd σ}

/-- Behind the parameters the program comes to the connection, unless the system's answers stop it. -/
theorem clientSession_finds {params : ParamOptsCl}
    (h : clientSession host params peer conn stdin = .ok e) :
    ∃ out serverAddress path, Finds host out serverAddress path := by
  obtain ⟨rc, out, serverAddress, hcfg, haddress⟩ := readCfg_address host.cfg host.vars
  unfold clientSession at h
  obtain ⟨read, hread, h⟩ := bind_eq_ok.1 h
  obtain ⟨path, hpath, -⟩ := bind_eq_ok.1 h
  exact ⟨out, serverAddress, path, ⟨rc, hcfg⟩, haddress, hpath⟩

/-- **Behind the parameters**, by the value of `client_connect`. -/
theorem clientSession_eq {params : ParamOptsCl} {out : CfgOut} {serverAddress : List Byte}
    {path : Option ResolvedPath} (h : Finds host out serverAddress path) {status : Errors}
    {connected : Bool}
    (hconnect : host.clientConnect serverAddress out.commPort = .ok (status, connected)) :
    clientSession host params peer conn stdin = .ok (if status ≠ .ok then .stopped status.num connected
      else .session (host.env params path)
        ((clientMain peer (host.env params path)).run.run
          ⟨conn, host.machine out.clientId path, stdin, 0, [], none⟩).1
        ((clientMain peer (host.env params path)).run.run
          ⟨conn, host.machine out.clientId path, stdin, 0, [], none⟩).2) := by
  obtain ⟨rc, hcfg⟩ := h.cfg
  unfold clientSession
  rw [hcfg, h.path]
  simp only [bind, Except.bind, h.address, hconnect]
  by_cases hok : status = .ok
  · simp only [hok, ne_eq, not_true_eq_false, if_false]
    rfl
  · simp only [ne_eq, hok, not_false_eq_true, if_true]
    rfl

/-- What follows the first message in the log. -/
theorem clientProgram_log (hlog : host.logFile = true) :
    clientProgram host (name :: args) peer conn stdin =
      if host.euid ≠ 0 then .ok (.stopped Errors.rootError.num false)
      else (do
        match ← parseParamsCl (name :: args) initParamsCl with
        | .exited => return .stopped exitSuccess false
        | .returned ret st =>
          if ret ≠ 0 then return .stopped Errors.paramsError.num false
          else clientSession host st.params peer conn stdin) := by
  unfold clientProgram
  rw [hlog]
  rfl

theorem clientProgram_noLog (hlog : host.logFile = false) :
    clientProgram host (name :: args) peer conn stdin = .ok (.stopped exitFailure false) := by
  unfold clientProgram
  rw [hlog]
  rfl

/-- A command line that is accepted. -/
theorem clientProgram_accepted {val : ℤ} (hval : Accepted host args val) :
    clientProgram host (name :: args) peer conn stdin =
      clientSession host ⟨val, (operands args).length, operands args⟩ peer conn stdin := by
  obtain ⟨parsed, hparsed, ⟨hhelp, -⟩ | ⟨-, ret, st, rfl, hiff, hparams⟩⟩ :=
    parseParamsCl_taken name hval.full
  · exact absurd hhelp hval.help
  · have hret : ret = 0 := hiff.2 ⟨val, hval.command⟩
    rw [clientProgram_log hval.log, if_neg (not_not.2 hval.user), hparsed]
    simp only [bind, Except.bind, hret, ne_eq, not_true_eq_false, if_false, hparams val hval.command]

/-- One that asks for the help, or is refused. -/
theorem clientProgram_refused (hlog : host.logFile = true) (huser : host.euid = 0) (hfull : FullNames (tokens args)) :
    (HelpRequested ((tokens args).map optionMeaning) →
        clientProgram host (name :: args) peer conn stdin = .ok (.stopped exitSuccess false)) ∧
      (¬ HelpRequested ((tokens args).map optionMeaning) →
        (∀ val, ¬ OneCommand ((tokens args).map optionMeaning) val) →
          clientProgram host (name :: args) peer conn stdin =
            .ok (.stopped Errors.paramsError.num false)) := by
  rw [clientProgram_log hlog, if_neg (not_not.2 huser)]
  obtain ⟨parsed, hparsed, ⟨hhelp, rfl⟩ | ⟨hhelp, ret, st, rfl, hiff, -⟩⟩ :=
    parseParamsCl_taken name hfull
  · rw [hparsed]
    exact ⟨fun _ => rfl, fun hno => absurd hhelp hno⟩
  · refine ⟨fun hyes => absurd hyes hhelp, fun _ hnone => ?_⟩
    have hret : ret ≠ 0 := by
      intro h
      obtain ⟨val, hval⟩ := hiff.1 h
      exact hnone val hval
    rw [hparsed]
    simp only [bind, Except.bind, ne_eq, hret, not_false_eq_true, if_true]
    rfl

theorem clientProgram_user (hlog : host.logFile = true) (huser : host.euid ≠ 0) :
    clientProgram host (name :: args) peer conn stdin = .ok (.stopped Errors.rootError.num false) := by
  rw [clientProgram_log hlog, if_pos huser]

/-- The options of a program that ends have their full names. -/
theorem clientProgram_full (hlog : host.logFile = true) (huser : host.euid = 0)
    (h : clientProgram host (name :: args) peer conn stdin = .ok e) : FullNames (tokens args) := by
  rw [clientProgram_log hlog, if_neg (not_not.2 huser)] at h
  obtain ⟨parsed, hparsed, -⟩ := bind_eq_ok.1 h
  by_contra hshort
  rw [parseParamsCl_behind name hshort] at hparsed
  cases hparsed

/-- **An accepted command line** comes to one of three ends. -/
theorem clientSession_ends {val : ℤ} (hval : Accepted host args val) {out : CfgOut}
    {serverAddress : List Byte} {path : Option ResolvedPath} (hfinds : Finds host out serverAddress path) :
    ∃ e, clientSession host ⟨val, (operands args).length, operands args⟩ peer conn stdin = .ok e ∧
      EndsWith host args peer conn stdin e := by
  cases hsocket : host.socket with
  | false =>
    have hconnect := host.clientConnect_socket hsocket serverAddress out.commPort
    exact ⟨_, clientSession_eq hfinds hconnect, .socket hval hfinds hsocket⟩
  | true =>
    rcases host.clientConnect_eq hsocket serverAddress out.commPort with ⟨hreaches, hconnect⟩ |
      ⟨hlost, hconnect⟩
    · exact ⟨_, clientSession_eq hfinds hconnect, .session hval hfinds hsocket hreaches rfl⟩
    · exact ⟨_, clientSession_eq hfinds hconnect, .networking hval hfinds hsocket hlost⟩

/-- The program that ends, ends in one of the ways. -/
theorem clientProgram_ends (h : clientProgram host (name :: args) peer conn stdin = .ok e) :
    EndsWith host args peer conn stdin e := by
  cases hlog : host.logFile with
  | false =>
    rw [clientProgram_noLog hlog] at h
    cases h
    exact .log hlog
  | true =>
    by_cases huser : host.euid = 0
    · have hfull := clientProgram_full hlog huser h
      obtain ⟨hasked, hrefused⟩ :=
        @clientProgram_refused host name args σ peer conn stdin hlog huser hfull
      by_cases hhelp : HelpRequested ((tokens args).map optionMeaning)
      · rw [hasked hhelp] at h
        cases h
        exact .help hlog huser hfull hhelp
      · by_cases hone : ∃ val, OneCommand ((tokens args).map optionMeaning) val
        · obtain ⟨val, hcommand⟩ := hone
          have hval : Accepted host args val := ⟨hlog, huser, hfull, hhelp, hcommand⟩
          rw [clientProgram_accepted hval] at h
          obtain ⟨out, serverAddress, path, hfinds⟩ := clientSession_finds h
          obtain ⟨e', he', hends⟩ := @clientSession_ends _ _ _ peer conn stdin _ hval _ _ _ hfinds
          rw [h] at he'
          cases he'
          exact hends
        · have hnone := not_exists.1 hone
          rw [hrefused hhelp hnone] at h
          cases h
          exact .params hlog huser hfull hhelp hnone
    · rw [clientProgram_user hlog huser] at h
      cases h
      exact .user hlog huser

/-- Each of the ways is the one the program takes. -/
theorem EndsWith.taken (h : EndsWith host args peer conn stdin e) :
    clientProgram host (name :: args) peer conn stdin = .ok e := by
  cases h with
  | log hlog => exact clientProgram_noLog hlog
  | user hlog huser => exact clientProgram_user hlog huser
  | help hlog huser hfull hhelp => exact (clientProgram_refused hlog huser hfull).1 hhelp
  | params hlog huser hfull hhelp hnone => exact (clientProgram_refused hlog huser hfull).2 hhelp hnone
  | socket hval hfinds hsocket =>
    rw [clientProgram_accepted hval]
    exact clientSession_eq hfinds (host.clientConnect_socket hsocket _ _)
  | networking hval hfinds hsocket hlost =>
    rw [clientProgram_accepted hval]
    rcases host.clientConnect_eq hsocket _ _ with ⟨hreaches, -⟩ | ⟨-, hconnect⟩
    · exact absurd hreaches hlost
    · exact clientSession_eq hfinds hconnect
  | session hval hfinds hsocket hreaches hrun =>
    rw [clientProgram_accepted hval]
    rcases host.clientConnect_eq hsocket _ _ with ⟨-, hconnect⟩ | ⟨hlost, -⟩
    · rw [clientSession_eq hfinds hconnect, hrun]
      rfl
    · exact absurd hreaches hlost

end Rds
