import Rds.Proof.Bursts
import Rds.Proof.ByteRefine

/-!
# The server's half of a session

In a session over byte sockets the two programs take turns. Each half of it is a run of one program:
the client's by definition, the server's by what is here.

* `Half`: what the server has been given and has done, by what the client has written.
* `Half.wrote`, `Half.recv`: the two acts of the client keep it.
* `session_adequate`: **the server's half is a run of `ssds_server_accept_connection`** on the reads
  of everything the client has written.
-/

namespace Rds

open Feed Invariant

variable {w : Wire} {env : Env} {fuel : ℕ} {sv : Server} {cenv : ClientEnv} {ps past : List Packet}
  {d : Duplex} {out : List Json}

/-! ## Half a session -/

/-- The server at the start of a session, with `rs` to read so far. -/
def Server.start (sv : Server) (rs : List ReadRes) : Server :=
  { sv with sock := ⟨rs, false⟩, clientEnd := false, sent := [] }

/-- **What the server has been given and has done**: `past` is what of the client's messages has
arrived, and `out` what the server has sent. -/
structure Half (w : Wire) (env : Env) (fuel : ℕ) (sv : Server) (d : Duplex) (past : List Packet)
    (out : List Json) : Prop where
  comes : Comes (serverTurn env fuel) (sv.start d.arrived) d.ended { d.server with sent := out }
  arrived : bytesOf d.arrived = w.bytes past
  returned : bytesOf d.returned = w.bytes (out.map fun r => (r, []))
  replied : d.replied = out.length
  unread : d.client.reads <:+ d.returned
  sent : d.server.sent = []
  closed : d.server.sock.closed = false

/-- The server's half of a session in which the client has written `ps`. -/
def HasHalf (w : Wire) (env : Env) (fuel : ℕ) (sv : Server) (ps : List Packet) (d : Duplex) : Prop :=
  ∃ past out, ps = past ++ d.packets ∧ Half w env fuel sv d past out

theorem HasHalf.accept : HasHalf w env fuel sv [] (.accept sv) :=
  ⟨[], [], rfl, Comes.refl _, rfl, rfl, rfl, List.suffix_rfl, rfl, rfl⟩

/-- **The client has written** a message and the data behind it. -/
theorem HasHalf.wrote (h : HasHalf w env fuel sv ps d) (p : Packet) :
    HasHalf w env fuel sv (ps ++ [p]) { d with packets := d.packets ++ [p] } := by
  obtain ⟨past, out, rfl, h⟩ := h
  refine ⟨past, out, List.append_assoc past d.packets [p], ?_⟩
  exact ⟨h.comes, h.arrived, h.returned, h.replied, h.unread, h.sent, h.closed⟩

theorem Wire.bytes_append (ps qs : List Packet) : w.bytes (ps ++ qs) = w.bytes ps ++ w.bytes qs :=
  List.flatMap_append

theorem Duplex.bytes_coming (d : Duplex) : bytesOf (d.coming w) = w.bytes d.packets :=
  w.up.bytes d.written (w.bytes d.packets)

/-- What the server has read of the connection, with `rs` behind it. -/
theorem Server.later_open (sv : Server) {out : List Json} {rs : List ReadRes} {closed : Bool}
    (hc : sv.sock.closed = false) : sv.later ⟨out, rs, closed⟩ =
      { sv with sock := ⟨sv.sock.reads ++ rs, closed⟩, sent := out ++ sv.sent } := by
  unfold Server.later Sock.later
  simp [hc]

/-- What the client has written arrives. -/
theorem Half.arrive (h : Half w env fuel sv d past out) :
    Half w env fuel sv (d.arrive w env) (past ++ d.packets) out := by
  have hmore := serverTurn_oblivious.comes ⟨[], d.coming w, false⟩ h.comes
  rw [Server.later_open _ rfl, Server.later_open { d.server with sent := out } h.closed] at hmore
  refine ⟨?_, ?_, h.returned, h.replied, h.unread, h.sent, h.closed⟩
  · have hserver : ({ d.server with sock := ⟨d.server.sock.reads ++ d.coming w, false⟩, sent := out } :
        Server) = { (d.arrive w env).server with sent := out } := by
      unfold Duplex.arrive
      rw [← h.closed]
    rw [← hserver]
    exact hmore
  · have hall : (d.arrive w env).arrived = d.arrived ++ d.coming w := rfl
    rw [hall, bytesOf_append, h.arrived, Duplex.bytes_coming, Wire.bytes_append]

/-- The client takes a reply. -/
theorem Half.take (h : Half w env fuel sv d past out) :
    Half w env fuel sv (d.take env).2 past out := by
  unfold Duplex.take
  cases hr : sockRecv d.client with
  | error e => exact h
  | ok p =>
    obtain ⟨buf, sock⟩ := p
    obtain ⟨g, x, hf, -, -⟩ := sockRecv_iff.1 hr
    exact ⟨h.comes, h.arrived, h.returned, h.replied, hf.rest.reads.trans h.unread, h.sent, h.closed⟩

theorem Duplex.take_packets (d : Duplex) : (d.take env).2.packets = d.packets := by
  unfold take
  split
  · rfl
  · rfl

theorem Half.torn (h : Half w env fuel sv d past out) :
    Half w env fuel sv { d with intact := false } past out :=
  ⟨h.comes, h.arrived, h.returned, h.replied, h.unread, h.sent, h.closed⟩

/-- A burst reads on, on a connection that stays open. -/
theorem serveAll_closed {n : ℕ} {b : Bool} {sv sv' : Server}
    (h : serveAll env fuel n sv = .ok (b, sv')) : sv'.sock.closed = sv.sock.closed := by
  induction n generalizing sv with
  | zero => cases h
  | succ n ih =>
    rw [serveAll] at h
    by_cases hdry : sv.sock.reads = []
    · rw [if_pos hdry] at h
      cases h
      rfl
    · rw [if_neg hdry] at h
      obtain ⟨⟨status, sv₁⟩, hp, h⟩ := bind_eq_ok.1 h
      obtain ⟨g, x, t, hf, ht⟩ := ssdsServerProcess_rest hp
      have hone : sv₁.sock.closed = sv.sock.closed := (hf.rest.trans ht).closed
      by_cases hend : status ≠ .ok ∨ sv₁.clientEnd = true
      · simp only [if_pos hend] at h
        cases h
        exact hone
      · simp only [if_neg hend] at h
        exact (ih h).trans hone

/-- **The server has taken its turns** on what is there. -/
theorem Half.ran (h : Half w env fuel sv d past out) (hopen : d.ended = false) {n : ℕ} {b : Bool}
    {sv' : Server} (hall : serveAll env fuel n d.server = .ok (b, sv')) :
    Half w env fuel sv (d.ran w env b sv') past (out ++ sv'.sent) := by
  have hburst := serverTurn_oblivious.comes ⟨out, [], false⟩ (serveAll_comes hall)
  have hclosed : sv'.sock.closed = false := (serveAll_closed hall).trans h.closed
  -- the burst starts where the session has come to
  have hsame : ∀ sv₁ : Server, sv₁.sock.closed = false →
      sv₁.later ⟨out, [], false⟩ = { sv₁ with sent := out ++ sv₁.sent } := by
    intro sv₁ hc
    rw [Server.later_open _ hc, List.append_nil, ← hc]
  rw [hsame _ h.closed, hsame _ hclosed, h.sent, List.append_nil] at hburst
  have hcomes := h.comes
  rw [hopen] at hcomes
  refine ⟨hcomes.trans hburst, h.arrived, ?_, ?_, ?_, rfl, hclosed⟩
  · have hreturned : (d.ran w env b sv').returned =
        d.returned ++ w.down.reads d.replied (w.bytes (sv'.sent.map fun r => (r, []))) := rfl
    rw [hreturned, bytesOf_append, h.returned, w.down.bytes, List.map_append, Wire.bytes_append]
  · have hreplied : (d.ran w env b sv').replied = d.replied + sv'.sent.length := rfl
    rw [hreplied, h.replied, List.length_append]
  · obtain ⟨front, hfront⟩ := h.unread
    refine ⟨front, ?_⟩
    show front ++ (d.client.reads ++ _) = d.returned ++ _
    rw [← List.append_assoc, hfront]

/-- **The client receives**: the server may take its turns first, or halt. -/
theorem HasHalf.recv (h : HasHalf w env fuel sv ps d) :
    (∃ e d', d.recv w env fuel = (.error e, d') ∧ d'.halted = true) ∨
      HasHalf w env fuel sv ps (d.recv w env fuel).2 := by
  obtain ⟨past, out, rfl, h⟩ := h
  unfold Duplex.recv
  by_cases hturn : d.client.reads = [] ∧ (!d.ended) = true
  · rw [if_pos hturn]
    have hopen : d.ended = false := by simpa using hturn.2
    dsimp only
    cases hall : serveAll env fuel ((d.arrive w env).server.sock.reads.length + 1)
        (d.arrive w env).server with
    | error e => exact Or.inl ⟨e, _, rfl, rfl⟩
    | ok p =>
      obtain ⟨b, sv'⟩ := p
      have hran := h.arrive.ran (d := d.arrive w env) hopen hall
      right
      -- killed as it wrote, the client leaves the server the same half
      dsimp only
      cases d.late w b with
      | true => exact ⟨_, _, (List.append_nil _).symm, hran.torn⟩
      | false => exact ⟨_, _, by simp [Duplex.take_packets, Duplex.ran, Duplex.arrive], hran.take⟩
  · rw [if_neg hturn]
    right
    cases d.late w d.ended with
    | true => exact ⟨past, out, rfl, h.torn⟩
    | false => exact ⟨past, out, by simp [Duplex.take_packets], h.take⟩

/-! ## Whole runs of the client -/

/-- A run of the client, and the server's half of its session. -/
def RunHalf (w : Wire) (env : Env) (fuel : ℕ) (sv : Server) (cenv : ClientEnv)
    (r : ClientRun Duplex) : Prop := HasHalf w env fuel sv (r.written cenv) r.conn

/-- Where a run may halt: the server has halted, or has its half. -/
def HaltHalf (w : Wire) (env : Env) (fuel : ℕ) (sv : Server) (cenv : ClientEnv)
    (r : ClientRun Duplex) : Prop := r.conn.halted = true ∨ RunHalf w env fuel sv cenv r

variable {r r' : ClientRun Duplex}

/-- An act that writes nothing. -/
theorem RunHalf.quiet (h : RunHalf w env fuel sv cenv r) (hconn : r'.conn = r.conn)
    (horiginal : r'.machine.original = r.machine.original) {es : List ClientEvent}
    (htrace : r'.trace = r.trace ++ es) (hes : es.filterMap (eventWrites cenv r'.machine) = []) :
    RunHalf w env fuel sv cenv r' := by
  have hsame : eventWrites cenv r'.machine = eventWrites cenv r.machine := by
    funext e
    cases e with
    | upload f => simp only [eventWrites, horiginal]
    | request action => rfl
    | acknowledged f => rfl
    | copied f => rfl
  have hwritten : r'.written cenv = r.written cenv := by
    unfold ClientRun.written
    rw [htrace, List.filterMap_append, hes, List.append_nil, hsame]
  unfold RunHalf
  rw [hwritten, hconn]
  exact h

/-- An act that writes a message. -/
theorem RunHalf.writes (h : RunHalf w env fuel sv cenv r) {e : ClientEvent} {p : Packet}
    (he : eventWrites cenv r.machine e = some p) :
    RunHalf w env fuel sv cenv
      { r with conn := { r.conn with packets := r.conn.packets ++ [p] }, trace := r.trace ++ [e] } := by
  have hwritten : (ClientRun.mk { r.conn with packets := r.conn.packets ++ [p] } r.machine r.stdin
      r.received (r.trace ++ [e]) r.answer).written cenv = r.written cenv ++ [p] := by
    unfold ClientRun.written
    rw [List.filterMap_append, List.filterMap_cons_some he, List.filterMap_nil]
  unfold RunHalf
  rw [hwritten]
  exact HasHalf.wrote h p

theorem receive_half (h : RunHalf w env fuel sv cenv r) :
    Triple (· = r) (receive (Duplex.peer w env fuel) cenv) (fun _ => RunHalf w env fuel sv cenv)
      (HaltHalf w env fuel sv cenv) := by
  have hrecv := HasHalf.recv h
  refine (receive_triple r).weaken ?_ ?_
  · rintro p r' ⟨c, hc, rfl⟩
    have hc' : r.conn.recv w env fuel = (.ok p.2, c) := hc
    rcases hrecv with ⟨e, d', he, -⟩ | hhalf
    · rw [hc'] at he
      cases he
    · rw [hc'] at hhalf
      exact hhalf
  · rintro r' ⟨e, c, hc, rfl⟩
    have hc' : r.conn.recv w env fuel = (.error e, c) := hc
    rcases hrecv with ⟨e', d', he, hhalt⟩ | hhalf
    · rw [hc'] at he
      cases he
      exact Or.inl hhalt
    · rw [hc'] at hhalf
      exact Or.inr hhalf

theorem ssdsSendFile_half (f : UploadFile) :
    Triple (RunHalf w env fuel sv cenv) (ssdsSendFile (Duplex.peer w env fuel) cenv f)
      (fun _ => RunHalf w env fuel sv cenv) (HaltHalf w env fuel sv cenv) := by
  refine Triple.of_forall fun r hr => ?_
  unfold ssdsSendFile
  refine Triple.get_bind ?_
  cases ho : r.machine.original f with
  | none => exact Triple.pure hr
  | some file =>
    unfold record
    refine Triple.modify_bind (Triple.modify_bind ?_)
    simp only [writeFile_duplex]
    have he : eventWrites cenv r.machine (.upload f) = some (headerDoc f file.length, file) := by
      simp only [eventWrites, ho]
      rfl
    refine Triple.bind (receive_half (hr.writes he)) ?_
    rintro ⟨fresh, del⟩ r' hr'
    unfold lift
    refine Triple.mk_bind ?_ fun _ _ => Or.inr hr'
    intro status hstatus
    by_cases hok : status = .ok
    · rw [if_pos hok]
      exact Triple.modify_bind (Triple.pure (hr'.quiet rfl rfl rfl rfl))
    · rw [if_neg hok]
      exact Triple.pure hr'

theorem RunHalf.stdin (h : RunHalf w env fuel sv cenv r) (stdin : List Char) :
    RunHalf w env fuel sv cenv { r with stdin } :=
  h.quiet rfl rfl (List.append_nil _).symm rfl

theorem uploads_half : Uploads (Duplex.peer w env fuel) cenv (RunHalf w env fuel sv cenv)
    (RunHalf w env fuel sv cenv) (HaltHalf w env fuel sv cenv) where
  stops _ hr := hr
  halts _ hr := Or.inr hr
  stdin _ stdin hr := hr.stdin stdin
  copied _ _ _ hr := hr.quiet rfl rfl rfl rfl
  sends f := (ssdsSendFile_half f).weaken (fun _ _ hr => ⟨hr, fun _ => hr⟩) fun _ hr => hr

theorem requestCommand_half (action : Code) :
    Triple (RunHalf w env fuel sv cenv) (requestCommand (Duplex.peer w env fuel) cenv action)
      (fun _ => RunHalf w env fuel sv cenv) (HaltHalf w env fuel sv cenv) := by
  refine Triple.of_forall fun r hr => ?_
  have hsend : Triple (· = r) (ssdsSendRepo (Duplex.peer w env fuel) cenv action)
      (fun _ => RunHalf w env fuel sv cenv) (HaltHalf w env fuel sv cenv) := by
    unfold ssdsSendRepo
    cases hrepos : cenv.repos with
    | none => exact Triple.pure hr
    | some repos =>
      unfold lift
      refine Triple.mk_bind ?_ fun _ _ => Or.inr hr
      intro json hjson
      have he : eventWrites cenv r.machine (.request action) = some (ssdsJsCrToString json, []) := by
        simp only [eventWrites, hrepos, Option.bind_eq_bind, Option.bind_some, hjson]
        rfl
      unfold record
      exact Triple.modify_bind (Triple.modify_bind (Triple.pure (hr.writes he)))
  unfold requestCommand
  refine Triple.bind hsend ?_
  intro status r₁ hr₁
  by_cases hok : status ≠ .ok
  · rw [if_pos hok]
    exact Triple.pure hr₁
  · rw [if_neg hok]
    refine Triple.bind (receive_half hr₁) ?_
    rintro ⟨fresh, del⟩ r₂ hr₂
    unfold lift
    refine Triple.mk_bind (fun _ _ => ?_) fun _ _ => Or.inr hr₂
    refine Triple.bind (receive_half hr₂) ?_
    rintro ⟨fresh', del'⟩ r₃ hr₃
    refine Triple.get_bind (Triple.mk_bind (fun a _ => ?_) fun _ _ => Or.inr hr₃)
    exact Triple.modify_bind (Triple.pure (hr₃.stdin a.stdin))

/-- **Every run of the client** leaves the server its half. -/
theorem clientMain_half :
    Triple (RunHalf w env fuel sv cenv) (clientMain (Duplex.peer w env fuel) cenv)
      (fun _ => RunHalf w env fuel sv cenv) (HaltHalf w env fuel sv cenv) := by
  refine Triple.of_forall fun r hr => ?_
  unfold clientMain
  refine Triple.bind (uploads_half.checkId.from hr) ?_
  rintro o r' ⟨hr', -⟩
  cases o with
  | some status => exact Triple.pure hr'
  | none =>
    cases cenv.effective.action with
    | none => exact Triple.pure hr'
    | some action => exact (requestCommand_half action).from hr'

/-! ## The server program -/

/-- **The server program has done its half.** On the reads that had arrived when the session ended it
returns, whatever comes behind them; on the reads of everything the client has written it goes on from
where the session stands. It has sent `out`, and what the client has not read is the end of that. -/
structure DidHalf (w : Wire) (env : Env) (sv : Server) (ps : List Packet) (d : Duplex)
    (out : List Json) : Prop where
  sends : bytesOf (d.sends w) = w.bytes ps
  returned : bytesOf d.returned = w.bytes (out.map fun r => (r, []))
  replied : d.replied = out.length
  unread : d.client.reads <:+ d.returned
  ended : d.ended = true → ∀ rest closed, ∃ n status t,
    ssdsServerAcceptConnection env n (some ⟨d.arrived ++ rest, closed⟩) sv =
      .ok (status, { d.server with sock := t, sent := out })
  waits : d.ended = false → ∀ closed p,
    (∃ n, ssdsServerAcceptConnection env n (some ⟨d.sends w, closed⟩) sv = .ok p) ↔
      SessionReturns env { d.server with
        sock := ⟨d.server.sock.reads ++ d.coming w, closed⟩, sent := out } p

theorem HasHalf.did (h : HasHalf w env fuel sv ps d) : ∃ out, DidHalf w env sv ps d out := by
  obtain ⟨past, out, rfl, h⟩ := h
  -- the session with more behind what has arrived
  have hall : ∀ rest closed, Comes (serverTurn env fuel)
      { sv with sock := ⟨d.arrived ++ rest, closed⟩, clientEnd := false, sent := [] } d.ended
      { d.server with sock := ⟨d.server.sock.reads ++ rest, closed⟩, sent := out } := by
    intro rest closed
    have hmore := serverTurn_oblivious.comes ⟨[], rest, closed⟩ h.comes
    rw [Server.later_open _ rfl, Server.later_open { d.server with sent := out } h.closed] at hmore
    exact hmore
  refine ⟨out, ?_, h.returned, h.replied, h.unread, ?_, ?_⟩
  · unfold Duplex.sends
    rw [bytesOf_append, h.arrived, Duplex.bytes_coming, Wire.bytes_append]
  · intro hended rest closed
    have hlast := hall rest closed
    rw [hended] at hlast
    obtain ⟨status, n, hn⟩ := comes_last hlast rfl
    exact ⟨n, status, _, hn⟩
  · intro hopen closed p
    have hgoes := hall (d.coming w) closed
    rw [hopen] at hgoes
    exact comes_sessionReturns hgoes rfl p

/-- **The server's half of a session is a run of the server program**: whatever the client does, and
however the bytes are cut, `ssds_server_accept_connection` on the reads of everything the client has
written does what the server has done between the client's acts. -/
theorem session_adequate (w : Wire) (env : Env) (fuel : ℕ) (cenv : ClientEnv) (sv : Server)
    (m : Machine) (stdin : List Char)
    (hlive : (runOn (Duplex.peer w env fuel) cenv (.accept sv) m stdin).2.conn.halted = false) :
    let r := (runOn (Duplex.peer w env fuel) cenv (.accept sv) m stdin).2
    ∃ out, DidHalf w env sv (r.written cenv) r.conn out := by
  intro r
  have hstart : RunHalf w env fuel sv cenv ⟨.accept sv, m, stdin, 0, [], none⟩ := HasHalf.accept
  have hend : HaltHalf w env fuel sv cenv r := by
    have hrun := clientMain_half ⟨.accept sv, m, stdin, 0, [], none⟩ hstart
    cases hr : (clientMain (Duplex.peer w env fuel) cenv).run.run ⟨.accept sv, m, stdin, 0, [], none⟩ with
    | mk v r' =>
      have hsame : r = r' := congrArg Prod.snd hr
      rw [hr] at hrun
      rw [hsame]
      cases v with
      | ok v => exact Or.inr hrun
      | error e => exact hrun
  rcases hend with hhalt | hhalf
  · rw [hlive] at hhalt
    cases hhalt
  · exact HasHalf.did hhalf

theorem session_adequate_fresh : ∃ out, DidHalf sessionWire sessionEnv (plainServer ⟨[], false⟩)
    (freshRun.2.written plainSession.client) freshRun.2.conn out :=
  session_adequate sessionWire sessionEnv 5 plainSession.client (plainServer ⟨[], false⟩) freshMachine []
    (by decide +kernel)

end Rds
