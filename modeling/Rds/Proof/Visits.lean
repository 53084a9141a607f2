import Rds.Proof.EndToEnd
import Rds.Proof.ServerHalf

/-!
# Who lets the server go

A client that has nothing to ask any more closes its connection, and the server goes on reading from
it. It comes back to the next client only if the session was over before.

* `clientMain_stands`: a session is over exactly if the client's last act was one the server answers
  by ending it.
* `Visit.accepted_iff`: then the server program returns from it, and only then.
* `visits_served_iff`: **the server comes back from a list of visits** exactly if each client's last
  act was a request or an upload that was refused.
-/

namespace Rds

open Invariant Coupling Feed Getopt

variable {ch : Channel} {env : Env} {fuel : ℕ} {cenv : ClientEnv} {l : Link} {sv sv' : Server}

/-! ## Uploads that are refused -/

theorem sendFileReply_ack (fresh : SsdsJsonRead) :
    sendFileReply fresh (.document (some ackDoc)) = .ok .ok := rfl

theorem Link.reply_ended (l : Link) : (l.reply ch).2.ended = l.ended := by
  unfold reply
  split
  · rfl
  · split <;> rfl

/-- The end of a session is not taken back. -/
theorem Link.recv_stays_ended (h : l.ended = true) : (l.recv ch env fuel).2.ended = true := by
  unfold recv
  split
  · simp only [h, if_true]
    rw [reply_ended]
  · rw [reply_ended]
    exact h

/-- **An upload that is not acknowledged** ends the session. -/
theorem uploadBranch_refused {f : UploadFile} {json : SsdsJsonRead} {status : Errors}
    (h : uploadBranch env (uploadOf f) fuel (ssdsJsCrInit .answerOk) json sv = .ok (status, sv'))
    (hsent : sv'.sent ≠ sv.sent ++ [ackDoc]) : status ≠ .ok ∨ sv'.clientEnd = true := by
  have h' := h
  unfold uploadBranch at h'
  obtain ⟨n, hn, -⟩ := bind_eq_ok.1 h'
  rcases (uploadBranch_ok_iff hn).1 h with ⟨-, -, js', sv₁, hloop, rfl⟩ | ⟨-, hst, -⟩
  · right
    obtain ⟨b, j, t, -, he⟩ := uploadLoop_receives hloop
    have hframe := (UploadFrame.opened sv).trans (uploadLoop_frame hloop)
    cases b with
    | false => exact he.clientEnd
    | true =>
      refine absurd ?_ hsent
      rw [Server.reply, hframe.sent, he.json]
      rfl
  · rw [hst]
    exact Or.inl (by simp)

theorem Link.Ready.refused (hch : ch.Reliable) (hready : l.Ready) (f : UploadFile)
    (file : List Byte) {del : Delivery} {l' : Link} {fresh : SsdsJsonRead}
    (h : Link.recv ch env fuel
      { l with message := some (headerDoc f file.length), data := file } = (.ok del, l'))
    (hno : sendFileReply fresh del ≠ .ok .ok) : l'.ended = true := by
  obtain ⟨status, r, hb, hsent, rfl, -, hended⟩ := hready.upload_recv hch f file h
  have hlast : status ≠ .ok ∨ l'.server.clientEnd = true := by
    refine uploadBranch_refused hb fun hack => hno ?_
    rw [hsent] at hack
    have hr : r = ackDoc := List.singleton_inj.1 hack
    rw [hr]
    exact sendFileReply_ack fresh
  rw [hended]
  simpa using hlast

/-- **A request** ends the session. -/
theorem Link.Ready.requested (hch : ch.Reliable) (hready : l.Ready) {op : Code} (hop : op ∈ getCodes)
    {doc : Json} (hcode : replyCode doc = .ok op.num) {del : Delivery} {l' : Link}
    (h : Link.recv ch env fuel { l with message := some doc, data := [] } = (.ok del, l')) :
    l'.ended = true := by
  set l₀ : Link := { l with message := some doc, data := [] } with hl₀
  have hmsg : l₀.message = some doc := rfl
  have hserved : serverDelivery env fuel (ch.up l₀.served doc) (env.fresh l₀.server.tick) (l₀.fed ch doc) =
      getBranch env op (ssdsJsCrInit .answerOk) (.ofRoot (some doc)) (l₀.fed ch doc) := by
    have hcode' : ssdsJsRdGetCode (.ofRoot (some doc)) = .ok op.num := hcode
    rw [hch.up]
    exact serverSwitch_get hop hcode' (l₀.fed ch doc)
  cases hb : getBranch env op (ssdsJsCrInit .answerOk) (.ofRoot (some doc)) (l₀.fed ch doc) with
  | error e =>
    obtain ⟨l₁, hrecv, -⟩ := Link.recv_error hmsg hready.replies hready.ended (hserved.trans hb)
    rw [hrecv] at h
    cases h
  | ok p =>
    obtain ⟨status, sv'⟩ := p
    obtain ⟨solves, hrecv⟩ := Link.recv_ok hmsg hready.replies hready.ended (hserved.trans hb)
    obtain ⟨-, hst, hend⟩ := getBranch_sock hb
    rw [hrecv] at h
    have hended := congrArg (fun p => p.2.ended) h
    rw [← hended]
    show (Link.reply ch _).2.ended = true
    rw [reply_ended]
    simp [hend]

/-! ## Where a run stands -/

/-- The session is over exactly if the last act ended it. -/
def Stands (r : ClientRun Link) : Prop := r.conn.ended = r.lastAsks

/-- The session goes on, and everything is answered. -/
structure Rests (r : ClientRun Link) : Prop where
  ready : r.conn.Ready
  last : r.lastAsks = false

theorem Rests.stands {r : ClientRun Link} (h : Rests r) : Stands r := h.ready.ended.trans h.last.symm

theorem lastAsks_concat {σ : Type} {r : ClientRun σ} {t : List ClientEvent} {e : ClientEvent}
    {b : Bool} (h : r.trace = t ++ [e]) (he : e.asks = b) : r.lastAsks = b := by
  unfold ClientRun.lastAsks
  rw [h, List.getLast?_concat]
  exact he

theorem ssdsSendFile_stands (hch : ch.Reliable) (f : UploadFile) :
    Triple Rests (ssdsSendFile (Link.peer ch env fuel) cenv f)
      (fun st r => Stands r ∧ (st = .ok → Rests r)) (fun _ => True) := by
  refine Triple.of_forall fun r hr => ?_
  unfold ssdsSendFile
  refine Triple.get_bind ?_
  cases r.machine.original f with
  | none => exact Triple.pure ⟨hr.stands, by intro h; cases h⟩
  | some file =>
    unfold record
    refine Triple.modify_bind (Triple.modify_bind ?_)
    simp only [writeFile_eq]
    refine Triple.bind ((receive_triple _).weaken (fun _ _ h => h) fun _ _ => trivial) ?_
    rintro ⟨fresh, d⟩ r' ⟨l', hrecv, rfl⟩
    unfold lift
    refine Triple.mk_bind ?_ fun _ _ => trivial
    intro status hstatus
    by_cases hok : status = .ok
    · rw [hok] at hstatus
      rw [if_pos hok]
      refine Triple.modify_bind (Triple.pure ?_)
      have hrests : Rests (ClientRun.mk l' r.machine r.stdin (r.received + 1)
          (r.trace ++ [.upload f] ++ [.acknowledged f]) r.answer) :=
        ⟨(hr.ready.uploaded hch f file hrecv hstatus).1, lastAsks_concat rfl rfl⟩
      exact ⟨hrests.stands, fun _ => hrests⟩
    · have hno : sendFileReply fresh d ≠ .ok .ok := by
        rw [hstatus]
        exact fun h => hok (Except.ok.inj h)
      rw [if_neg hok]
      refine Triple.pure ⟨?_, fun h => absurd h hok⟩
      have hlast : (ClientRun.mk l' r.machine r.stdin (r.received + 1)
          (r.trace ++ [.upload f]) r.answer).lastAsks = true := lastAsks_concat rfl rfl
      exact (hr.ready.refused hch f file hrecv hno).trans hlast.symm

theorem uploads_stand (hch : ch.Reliable) :
    Uploads (Link.peer ch env fuel) cenv Rests Stands (fun _ => True) where
  stops _ hr := hr.stands
  halts _ _ := trivial
  stdin _ _ hr := ⟨hr.ready, hr.last⟩
  copied _ _ _ hr := ⟨hr.ready, lastAsks_concat rfl rfl⟩
  sends := ssdsSendFile_stands hch

/-- A receive does not take back the end of a session. -/
theorem receive_ended {r : ClientRun Link} (hended : r.conn.ended = true) :
    Triple (· = r) (receive (Link.peer ch env fuel) cenv)
      (fun _ r' => r'.conn.ended = true ∧ r'.trace = r.trace) (fun _ => True) := by
  refine (receive_triple r).weaken ?_ fun _ _ => trivial
  rintro p r' ⟨c, hc, rfl⟩
  have hstays : (r.conn.recv ch env fuel).2.ended = true := Link.recv_stays_ended hended
  have hc' : r.conn.recv ch env fuel = (.ok p.2, c) := hc
  rw [hc'] at hstays
  exact ⟨hstays, rfl⟩

theorem requestCommand_stands (hch : ch.Reliable) {op : Code} (hop : op ∈ getCodes) :
    Triple Rests (requestCommand (Link.peer ch env fuel) cenv op) (fun _ => Stands)
      (fun _ => True) := by
  refine Triple.of_forall fun r hr => ?_
  have hsend : Triple (· = r) (ssdsSendRepo (Link.peer ch env fuel) cenv op)
      (fun status r' => if status = .ok then ∃ doc, replyCode doc = .ok op.num ∧
          r'.conn = { r.conn with message := some doc, data := [] } ∧
          r'.trace = r.trace ++ [.request op]
        else Rests r') (fun _ => True) := by
    unfold ssdsSendRepo
    cases cenv.repos with
    | none => exact Triple.pure hr
    | some repos =>
      unfold lift record
      refine Triple.mk_bind ?_ fun _ _ => trivial
      intro json hjson
      refine Triple.modify_bind (Triple.modify_bind (Triple.pure ?_))
      rw [if_pos rfl]
      exact ⟨_, repoMessage_code hjson, rfl, rfl⟩
  unfold requestCommand
  refine Triple.bind hsend ?_
  intro status r₁ hsent
  by_cases hok : status = .ok
  · rw [if_pos hok] at hsent
    obtain ⟨doc, hcode, hconn, htrace⟩ := hsent
    simp only [hok, ne_eq, not_true_eq_false, if_false]
    -- the acknowledgement comes with the end of the session
    refine Triple.bind ((receive_triple r₁).weaken (fun _ _ h => h) fun _ _ => trivial) ?_
    rintro ⟨fresh, del⟩ r₂ ⟨c, hc, rfl⟩
    have hrecv : Link.recv ch env fuel r₁.conn = (.ok del, c) := hc
    rw [hconn] at hrecv
    have hended : c.ended = true := hr.ready.requested hch hop hcode hrecv
    unfold lift
    refine Triple.mk_bind (fun _ _ => ?_) fun _ _ => trivial
    refine Triple.bind (receive_ended hended) ?_
    rintro ⟨fresh', del'⟩ r₃ ⟨hended₃, htrace₃⟩
    refine Triple.get_bind (Triple.mk_bind (fun a _ => ?_) fun _ _ => trivial)
    refine Triple.modify_bind (Triple.pure ?_)
    have hlast : r₃.lastAsks = true := lastAsks_concat (htrace₃.trans htrace) rfl
    exact hended₃.trans hlast.symm
  · rw [if_neg hok] at hsent
    simp only [ne_eq, hok, not_false_eq_true, if_true]
    exact Triple.pure hsent.stands

/-- **A session is over** exactly if the client's last act ended it. -/
theorem clientMain_stands (hch : ch.Reliable) :
    Triple Rests (clientMain (Link.peer ch env fuel) cenv) (fun _ => Stands) (fun _ => True) := by
  refine Triple.of_forall fun r hr => ?_
  unfold clientMain
  refine Triple.bind ((uploads_stand hch).checkId.from hr) ?_
  rintro o r' ⟨hstands, hrests⟩
  cases o with
  | some status => exact Triple.pure hstands
  | none =>
    cases haction : cenv.effective.action with
    | none => exact Triple.pure hstands
    | some op => exact (requestCommand_stands hch (Command.action_mem haction)).from (hrests rfl)

/-! ## One visit -/

variable {v : Visit}

/-- **A visit whose messages come through**: the client comes to its end, every message was read as
one, and no request was the end of the server. -/
structure Visit.Clean (env : Env) (fuel : ℕ) (sv : Server) (v : Visit) : Prop where
  short : v.machine.Short
  returns : ∃ code, (v.run env fuel sv).1 = .ok code
  intact : (v.run env fuel sv).2.conn.intact

/-- How a visit leaves the connection. -/
structure Visit.Left (env : Env) (fuel : ℕ) (sv : Server) (v : Visit) (r : ClientRun Duplex) : Prop where
  half : RunHalf v.wire env fuel sv v.client r
  ended : r.conn.ended = r.lastAsks
  sock : r.conn.ended = false → r.conn.server.sock = ⟨[], false⟩
  packets : r.conn.ended = false → r.conn.packets = []
  clientEnd : r.conn.ended = false → r.conn.server.clientEnd = false

theorem Visit.Clean.left (hempty : env.load [] = some none) (h : v.Clean env fuel sv) :
    v.Left env fuel sv (v.run env fuel sv).2 := by
  set s : ClientRun Duplex := ⟨.accept sv, v.machine, v.stdin, 0, [], none⟩ with hs
  obtain ⟨code, hcode⟩ := h.returns
  have hrun : (clientMain (Duplex.peer v.wire env fuel) v.client).run.run s =
      (.ok code, (v.run env fuel sv).2) := Prod.ext hcode rfl
  have hhalf := @clientMain_half v.wire env fuel sv v.client s HasHalf.accept
  rw [hrun] at hhalf
  have hstands := @clientMain_stands v.wire.channel env fuel v.client v.wire.channel_reliable
    (s.over (Link.accept sv)) ⟨⟨rfl, rfl, rfl⟩, rfl⟩
  have hcoupled : Coupled (ConnGone Torn) (clientMain (Duplex.peer v.wire env fuel) v.client) s
      (clientMain (Link.peer v.wire.channel env fuel) v.client) (s.over (Link.accept sv))
      (fun _ => Paired (Tied env)) (Paired Broken) :=
    clientMain_coupled (duplex_simulates hempty) (Idle.accept sv) h.short
  rcases hcoupled with hgone | ⟨a, s', t', hx, hy, l, rfl, htied, -⟩ | ⟨e, s', t', hx, -, -⟩
  · exact absurd h.intact hgone
  · rw [hrun] at hx
    obtain ⟨-, rfl⟩ := Prod.mk.inj hx
    rw [hy] at hstands
    exact ⟨hhalf, htied.ended.trans hstands, htied.sock, htied.packets, htied.clientEnd⟩
  · rw [hrun] at hx
    cases hx

theorem ssdsServerAcceptConnection_same {n : ℕ} {conn : Sock} (h : SameServer sv sv') :
    ssdsServerAcceptConnection env n (some conn) sv' =
      ssdsServerAcceptConnection env n (some conn) sv := by
  unfold SameServer at h
  unfold ssdsServerAcceptConnection
  rw [h]

/-- **A visit ends its session** exactly if the client's last act did, and leaves the server as it
was left between the client's acts. -/
theorem Visit.accepted_iff (hempty : env.load [] = some none) (h : v.Clean env fuel sv) :
    ((∃ n p, ssdsServerAcceptConnection env n (some (v.sock env fuel sv)) sv = .ok p) ↔
        (v.run env fuel sv).2.lastAsks = true) ∧
      ∀ n status sv', ssdsServerAcceptConnection env n (some (v.sock env fuel sv)) sv =
        .ok (status, sv') → SameServer (v.leaves env fuel sv) sv' := by
  have hleft := h.left hempty
  obtain ⟨out, hdid⟩ := HasHalf.did hleft.half
  have hended := hleft.ended
  cases hlast : (v.run env fuel sv).2.lastAsks with
  | true =>
    rw [hlast] at hended
    obtain ⟨n, status, t, hn⟩ := hdid.ended hended ((v.run env fuel sv).2.conn.coming v.wire) true
    refine ⟨⟨fun _ => rfl, fun _ => ⟨n, _, hn⟩⟩, ?_⟩
    intro n' status' sv' hn'
    have hsame := ssdsServerAcceptConnection_unique hn hn'
    cases hsame
    rfl
  | false =>
    rw [hlast] at hended
    have hnever : ∀ n p, ssdsServerAcceptConnection env n (some (v.sock env fuel sv)) sv ≠ .ok p := by
      intro n p hn
      obtain ⟨k, hk⟩ := (hdid.waits hended true p).1 ⟨n, hn⟩
      have hdry : (v.run env fuel sv).2.conn.server.sock.reads ++
          (v.run env fuel sv).2.conn.coming v.wire = [] := by
        rw [hleft.sock hended, Duplex.coming_nil (hleft.packets hended)]
        rfl
      refine absurd hk (sessionLoop_eof hempty ?_ ?_)
      · exact hdry
      · exact hleft.clientEnd hended
    refine ⟨⟨?_, by simp⟩, fun n status sv' hn => absurd hn (hnever n _)⟩
    rintro ⟨n, p, hn⟩
    exact absurd hn (hnever n p)

theorem Visit.served_one (hempty : env.load [] = some none) (h : v.Clean env fuel sv) {sv₁ : Server}
    (hsame : SameServer sv sv₁) :
    ((∃ sv₂, Served env [some (v.sock env fuel sv)] sv₁ sv₂) ↔
        (v.run env fuel sv).2.lastAsks = true) ∧
      ∀ sv₂, Served env [some (v.sock env fuel sv)] sv₁ sv₂ →
        SameServer (v.leaves env fuel sv) sv₂ := by
  obtain ⟨hiff, hleaves⟩ := v.accepted_iff hempty h
  have hone : ∀ sv₂, Served env [some (v.sock env fuel sv)] sv₁ sv₂ ↔ ∃ n status,
      ssdsServerAcceptConnection env n (some (v.sock env fuel sv)) sv = .ok (status, sv₂) := by
    intro sv₂
    simp only [Served.one_iff, ssdsServerAcceptConnection_same hsame]
  constructor
  · rw [← hiff]
    constructor
    · rintro ⟨sv₂, hserved⟩
      obtain ⟨n, status, hn⟩ := (hone sv₂).1 hserved
      exact ⟨n, _, hn⟩
    · rintro ⟨n, ⟨status, sv₂⟩, hn⟩
      exact ⟨sv₂, (hone sv₂).2 ⟨n, status, hn⟩⟩
  · intro sv₂ hserved
    obtain ⟨n, status, hn⟩ := (hone sv₂).1 hserved
    exact hleaves n status sv₂ hn

/-! ## One after the other -/

section
variable {α : Type} {leaves : Server → α → Server} {clean lets : Server → α → Prop}
  {socks : Server → List α → List (Option Sock)}

/-- The server goes through all that comes exactly if each lets it go. It is left as it was between
the clients' acts. -/
theorem Served.along_iff (comes : Server → α → List (Option Sock)) (hnil : ∀ sv, socks sv [] = [])
    (hcons : ∀ sv a as, socks sv (a :: as) = comes sv a ++ socks (leaves sv a) as)
    (hone : ∀ {sv a}, clean sv a → ∀ {sv₁}, SameServer sv sv₁ →
      ((∃ sv₂, Served env (comes sv a) sv₁ sv₂) ↔ lets sv a) ∧
        ∀ sv₂, Served env (comes sv a) sv₁ sv₂ → SameServer (leaves sv a) sv₂)
    (as : List α) : ∀ {sv sv₁ : Server}, SameServer sv sv₁ → Along leaves clean sv as →
      ((∃ sv', Served env (socks sv as) sv₁ sv') ↔ Along leaves lets sv as) ∧
        ∀ sv', Served env (socks sv as) sv₁ sv' → SameServer (as.foldl leaves sv) sv' := by
  induction as with
  | nil =>
    intro sv sv₁ hsame _
    rw [hnil]
    refine ⟨⟨fun _ => trivial, fun _ => ⟨sv₁, Served.nil_iff.2 rfl⟩⟩, ?_⟩
    intro sv' h
    rw [Served.nil_iff.1 h]
    exact hsame
  | cons a as ih =>
    intro sv sv₁ hsame ⟨hclean, hrest⟩
    obtain ⟨hiff, hleaves⟩ := hone hclean hsame
    rw [hcons]
    constructor
    · constructor
      · rintro ⟨sv', h⟩
        obtain ⟨sv₂, hfirst, h⟩ := Served.append_iff.1 h
        exact ⟨hiff.1 ⟨sv₂, hfirst⟩, (ih (hleaves sv₂ hfirst) hrest).1.1 ⟨sv', h⟩⟩
      · rintro ⟨hlet, hlets⟩
        obtain ⟨sv₂, hfirst⟩ := hiff.2 hlet
        obtain ⟨sv', h⟩ := (ih (hleaves sv₂ hfirst) hrest).1.2 hlets
        exact ⟨sv', Served.append_iff.2 ⟨sv₂, hfirst, h⟩⟩
    · intro sv' h
      obtain ⟨sv₂, hfirst, h⟩ := Served.append_iff.1 h
      exact (ih (hleaves sv₂ hfirst) hrest).2 sv' h

/-- The same of the whole program. -/
theorem serverMain_along_iff (host : ServerHost) (name : Arg) (args : List Arg) {sv : Server}
    {as : List α} (h : ((∃ sv', Served env (socks sv as) sv sv') ↔ Along leaves lets sv as) ∧
      ∀ sv', Served env (socks sv as) sv sv' → SameServer (as.foldl leaves sv) sv') :
    ((∃ n sv', serverMain host (name :: args) env n (socks sv as) sv = .ok (.waiting sv')) ↔
        oddOption (optionChars args) = none ∧ host.Listens ∧ Along leaves lets sv as) ∧
      ∀ n sv', serverMain host (name :: args) env n (socks sv as) sv = .ok (.waiting sv') →
        SameServer (as.foldl leaves sv) sv' := by
  simp only [serverMain_waiting_iff, acceptLoop_waiting_iff]
  refine ⟨⟨?_, ?_⟩, fun n sv' hw => h.2 sv' ⟨n, hw.2.2⟩⟩
  · rintro ⟨n, sv', hodd, hl, hloop⟩
    exact ⟨hodd, hl, h.1.1 ⟨sv', n, hloop⟩⟩
  · rintro ⟨hodd, hl, hlets⟩
    obtain ⟨sv', n, hloop⟩ := h.1.2 hlets
    exact ⟨n, sv', hodd, hl, hloop⟩

end

/-- **When the server program comes back from its clients.** Each comes, talks and closes; the
program waits for the next one exactly if it listens and each client's last act was a request, or an
upload that was refused. -/
theorem visits_served_iff (hempty : env.load [] = some none) (fuel : ℕ) (host : ServerHost)
    (name : Arg) (args : List Arg) (sv : Server) (vs : List Visit)
    (hclean : Along (Visit.leaves env fuel) (Visit.Clean env fuel) sv vs) :
    ((∃ n sv', serverMain host (name :: args) env n (Visit.socks env fuel sv vs) sv =
          .ok (.waiting sv')) ↔
        oddOption (optionChars args) = none ∧ host.Listens ∧
          Along (Visit.leaves env fuel) (fun sv v => (v.run env fuel sv).2.lastAsks = true) sv vs) ∧
      ∀ n sv', serverMain host (name :: args) env n (Visit.socks env fuel sv vs) sv =
        .ok (.waiting sv') → SameServer (vs.foldl (Visit.leaves env fuel) sv) sv' := by
  have hcons : ∀ sv v vs, Visit.socks env fuel sv (v :: vs) =
      [some (v.sock env fuel sv)] ++ Visit.socks env fuel (v.leaves env fuel sv) vs := fun _ _ _ => rfl
  exact serverMain_along_iff host name args
    (Served.along_iff _ (fun _ => rfl) hcons (Visit.served_one hempty) vs rfl hclean)

/-! ## Two visits -/

/-- A client that is new to the server, and asks it. -/
def freshVisit : Visit := ⟨sessionWire, plainSession.client, freshMachine, []⟩

/-- A client that checks its dependencies, with nothing new to upload. -/
def idleVisit : Visit where
  wire := sessionWire
  client := { plainSession.client with command := .chkDep }
  machine := { id := some "c", original := fun _ => some [7], backup := fun _ => some [7] }
  stdin := []

/-- The first run comes to its end with the number of the answer. -/
theorem freshRun_code : freshRun.1 = .ok Code.answerNoDep.num := by decide +kernel

theorem twoVisits_clean : Along (Visit.leaves sessionEnv 5) (Visit.Clean sessionEnv 5)
    (plainServer ⟨[], false⟩) [freshVisit, idleVisit] := by
  refine ⟨⟨freshMachine_short, ⟨_, freshRun_code⟩, freshRun_intact⟩, ⟨?_, ⟨0, ?_⟩, ?_⟩, trivial⟩
  · intro f file hf
    cases hf
    decide
  · decide +kernel
  · decide +kernel

/-- The second client leaves the server reading from a connection that is closed. -/
theorem visits_served_iff_idle : ¬ ∃ n sv', serverMain openHost [[]] sessionEnv n
    (Visit.socks sessionEnv 5 (plainServer ⟨[], false⟩) [freshVisit, idleVisit])
      (plainServer ⟨[], false⟩) = .ok (.waiting sv') := by
  intro h
  obtain ⟨-, -, -, hidle, -⟩ := (visits_served_iff rfl 5 openHost [] [] (plainServer ⟨[], false⟩)
    [freshVisit, idleVisit] twoVisits_clean).1.1 h
  revert hidle
  decide +kernel

end Rds
