import Rds.Lib.Replay
import Rds.Proof.ByteRefine
import Rds.Proof.Resolve

/-!
# From the request to the transaction

A session from end to end. What the client and the server do with messages, documents, cursors and
counts cancels out, and what is left is the outcome of the request.

* `requestCommand_endsAs`: a request on a connection that delivers its messages.
* `uploads_prepare`: the uploads before it leave the connection ready.
* `clientMain_endsAs`, `session_outcome`: **a whole session ends as its outcome**, message by
  message and byte by byte.
-/

namespace Rds

open Replay Invariant Coupling

variable {doc : Json} {pkgs : List String} {repos : List SsdsRepoInfo} {operation : Code}

/-! ## The request -/

/-- The request is built from what the client has. -/
theorem repoMessage_builds (hvalid : ∀ r ∈ repos, r.Valid) (pkgs : List String) (action : Code) :
    ∃ json, repoMessage (repos.map SsdsRepoInfo.entry) pkgs action = .ok json ∧
      Builds json pkgs repos := by
  let calls : List CrCall := repos.map .addRepo ++ pkgs.map .addPackage
  have hcalls : ∀ r, CrCall.addRepo r ∈ calls → r.Valid := by
    intro r hr
    rcases List.mem_append.1 hr with hr | hr
    · obtain ⟨r', hr', heq⟩ := List.mem_map.1 hr
      cases heq
      exact hvalid r hr'
    · obtain ⟨pkg, -, heq⟩ := List.mem_map.1 hr
      cases heq
  obtain ⟨json, hjson, hbuilds⟩ := crRun_builds calls (Builds.init action) hcalls
  have hpkgs : addedPackages calls = pkgs := by
    simp [calls, addedPackages, List.filterMap_append, List.filterMap_map, Function.comp_def,
      CrCall.package?]
  have hrepos : addedRepos calls = repos := by
    simp [calls, addedRepos, List.filterMap_append, List.filterMap_map, Function.comp_def,
      CrCall.repo?]
  rw [List.nil_append, List.nil_append, hpkgs, hrepos] at hbuilds
  refine ⟨json, ?_, hbuilds⟩
  rw [List.foldlM_append, List.foldlM_map] at hjson
  unfold repoMessage
  rw [List.foldlM_map]
  obtain ⟨json₁, h₁, h₂⟩ := bind_eq_ok.1 hjson
  rw [List.foldlM_map] at h₂
  exact bind_eq_ok.2 ⟨json₁, h₁, h₂⟩

variable {ch : Channel} {senv : Env} {fuel : ℕ} {cenv : ClientEnv} {l : Link}

/-- Where the client may write: everything is read, and the server serves on. -/
structure Link.Ready (l : Link) : Prop where
  replies : l.replies = []
  ended : l.ended = false
  clientEnd : l.server.clientEnd = false

/-- **A request on a connection**, decided: the client reads the acknowledgement and the decision. -/
theorem Link.recv_resolved (hch : ch.Reliable) (hready : l.Ready) (hop : operation ∈ getCodes)
    (hcode : replyCode doc = .ok operation.num) (hdoc : HasLists doc pkgs repos)
    (hvalid : ∀ r ∈ repos, r.Valid) {goal : Option HySolution}
    (h : senv.resolve (l.server.tick + 1) l.server.cache operation pkgs repos = .ok goal) :
    ∃ reply l₁ l₂, Tells reply goal ∧
      Link.recv ch senv fuel { l with message := some doc, data := [] } =
        (.ok (.document (some ackDoc)), l₁) ∧
      l₁.recv ch senv fuel = (.ok (.document (some reply)), l₂) := by
  set l₀ : Link := { l with message := some doc, data := [] } with hl₀
  obtain ⟨reply, htells, hbranch⟩ := @getBranch_resolved operation senv doc pkgs repos hdoc hvalid
    (l₀.fed ch doc) goal h
  set sv : Server := (l₀.fed ch doc).answered (senv.locate (l.server.tick + 1) l.server.cache repos).1
    reply with hsv
  have hs : serverDelivery senv fuel (ch.up l₀.served doc) (senv.fresh l₀.server.tick) (l₀.fed ch doc) =
      .ok (.ok, sv) := by
    have hcode' : ssdsJsRdGetCode (.ofRoot (some doc)) = .ok operation.num := hcode
    rw [hch.up]
    exact (serverSwitch_get hop hcode' (l₀.fed ch doc)).trans hbranch
  have hmsg : l₀.message = some doc := rfl
  obtain ⟨solves, hrecv⟩ := Link.recv_ok hmsg hready.replies hready.ended hs
  -- both replies are there, and the session is over
  let l₁ : Link := ⟨sv, none, [], [reply], l₀.served + 1, l₀.delivered + 1, solves, true, l₀.halted⟩
  have hfirst : l₀.recv ch senv fuel = (.ok (.document (some ackDoc)), l₁) := by
    rw [hrecv, ← hch.down l₀.delivered ackDoc]
    rfl
  have hsecond : l₁.recv ch senv fuel =
      (.ok (.document (some reply)), { l₁ with replies := [], delivered := l₁.delivered + 1 }) := by
    rw [Link.recv_reply (Or.inl rfl), ← hch.down l₁.delivered reply]
    rfl
  exact ⟨reply, l₁, _, htells, hfirst, hsecond⟩

/-- **A request that cannot be decided** leaves the client without a reply. -/
theorem Link.recv_unresolved (hch : ch.Reliable) (hready : l.Ready) (hop : operation ∈ getCodes)
    (hcode : replyCode doc = .ok operation.num) (hdoc : HasLists doc pkgs repos)
    (hvalid : ∀ r ∈ repos, r.Valid) {e : Halt}
    (h : senv.resolve (l.server.tick + 1) l.server.cache operation pkgs repos = .error e) :
    ∃ l₁, Link.recv ch senv fuel { l with message := some doc, data := [] } = (.error e, l₁) := by
  set l₀ : Link := { l with message := some doc, data := [] } with hl₀
  have hs : serverDelivery senv fuel (ch.up l₀.served doc) (senv.fresh l₀.server.tick) (l₀.fed ch doc) =
      .error e := by
    have hcode' : ssdsJsRdGetCode (.ofRoot (some doc)) = .ok operation.num := hcode
    rw [hch.up]
    exact (serverSwitch_get hop hcode' (l₀.fed ch doc)).trans (getBranch_unresolved hdoc hvalid h)
  have hmsg : l₀.message = some doc := rfl
  obtain ⟨l₁, hrecv, -⟩ := Link.recv_error hmsg hready.replies hready.ended hs
  exact ⟨l₁, hrecv⟩

/-- **A run that ended as an outcome says**: with its value, or with its halt; what is typed after it
is left, and the same was asked, downloaded and run. -/
structure EndsAs {σ : Type} (p : Except Halt ℤ × ClientRun σ) (out : Except Halt AnswerResult) :
    Prop where
  result : p.1 = out.map AnswerResult.rc
  stdin : ∀ a, out = .ok a → p.2.stdin = a.stdin
  answer : ∀ a, out = .ok a → p.2.answer = some a

theorem EndsAs.halts {σ : Type} {p : Except Halt ℤ × ClientRun σ} {e : Halt} (h : p.1 = .error e) :
    EndsAs p (.error e) :=
  ⟨h, nofun, nofun⟩

theorem EndsAs.returns {σ : Type} {p : Except Halt ℤ × ClientRun σ} {a : AnswerResult}
    (h : p.1 = .ok a.rc) (hstdin : p.2.stdin = a.stdin) (hanswer : p.2.answer = some a) :
    EndsAs p (.ok a) := by
  refine ⟨h, fun a' ha => ?_, fun a' ha => ?_⟩
  · cases ha
    exact hstdin
  · cases ha
    exact hanswer

theorem receive_of_ok {σ : Type} {P : Peer σ} {s : ClientRun σ} {d : Delivery} {c : σ}
    (h : P.recv s.conn = (.ok d, c)) :
    (receive P cenv).run.run s =
      (.ok (cenv.fresh s.received, d), { s with conn := c, received := s.received + 1 }) := by
  unfold receive
  rw [run_get_bind, h]
  rfl

theorem receive_of_error {σ : Type} {P : Peer σ} {s : ClientRun σ} {e : Halt} {c : σ}
    (h : P.recv s.conn = (.error e, c)) :
    (receive P cenv).run.run s = (.error e, { s with conn := c, received := s.received + 1 }) := by
  unfold receive
  rw [run_get_bind, h]
  rfl

/-- **A request on a connection** ends as its outcome. -/
theorem requestCommand_endsAs (hch : ch.Reliable) (hop : operation ∈ getCodes)
    (hrepos : cenv.repos = some (repos.map SsdsRepoInfo.entry)) (hvalid : ∀ r ∈ repos, r.Valid)
    {s : ClientRun Link} (hready : s.conn.Ready) :
    EndsAs ((requestCommand (Link.peer ch senv fuel) cenv operation).run.run s)
      (senv.outcome (s.conn.server.tick + 1) s.conn.server.cache operation cenv repos s.stdin) := by
  obtain ⟨json, hjson, hbuilds⟩ := repoMessage_builds hvalid cenv.pkgs operation
  have hcode := repoMessage_code hjson
  set doc := ssdsJsCrToString json with hdoc
  -- the request is written
  let s₁ : ClientRun Link := ⟨{ s.conn with message := some doc, data := [] }, s.machine, s.stdin,
    s.received, s.trace ++ [.request operation], s.answer⟩
  have hsend : (ssdsSendRepo (Link.peer ch senv fuel) cenv operation).run.run s = (.ok .ok, s₁) := by
    unfold ssdsSendRepo lift
    rw [hrepos]
    simp only [hjson]
    rfl
  unfold requestCommand Env.outcome
  rw [run_bind_ok hsend]
  simp only [ne_eq, not_true_eq_false, if_false]
  cases hresolve : senv.resolve (s.conn.server.tick + 1) s.conn.server.cache operation cenv.pkgs
      repos with
  | error e =>
    obtain ⟨l₁, hrecv⟩ := Link.recv_unresolved hch hready hop hcode hbuilds.hasLists hvalid hresolve
    have hlost : (receive (Link.peer ch senv fuel) cenv).run.run s₁ = _ := receive_of_error hrecv
    rw [run_bind_error hlost]
    exact EndsAs.halts rfl
  | ok goal =>
    obtain ⟨reply, l₁, l₂, htells, hfirst, hsecond⟩ :=
      Link.recv_resolved hch hready hop hcode hbuilds.hasLists hvalid hresolve
    let s₂ : ClientRun Link := { s₁ with conn := l₁, received := s₁.received + 1 }
    have hack : (receive (Link.peer ch senv fuel) cenv).run.run s₁ = (.ok _, s₂) :=
      receive_of_ok hfirst
    have hcheck : (lift (ssdsCheckRepo (cenv.fresh s₁.received) (.document (some ackDoc))) :
        ClientM Link (ℤ × Option String)).run.run s₂ = (.ok (Code.answerOk.num, none), s₂) := rfl
    have hanswer : (receive (Link.peer ch senv fuel) cenv).run.run s₂ =
        (.ok _, { s₂ with conn := l₂, received := s₂.received + 1 }) := receive_of_ok hsecond
    rw [run_bind_ok hack, run_bind_ok hcheck, run_bind_ok hanswer, run_get_bind,
      htells.answerProcess]
    have hsame : (Except.ok goal >>= fun goal => carryOut cenv.lr cenv.rpm s.stdin goal) =
        carryOut cenv.lr cenv.rpm s.stdin goal := rfl
    have hstdin : s.stdin = s₂.stdin := rfl
    rw [hsame, hstdin]
    cases carryOut cenv.lr cenv.rpm s₂.stdin goal with
    | error e => exact EndsAs.halts rfl
    | ok a => exact EndsAs.returns rfl rfl rfl

/-! ## The uploads before it -/

variable {u : Upload} {sv sv' : Server} {f : UploadFile}

/-- A loop that reports no error leaves the session going. -/
theorem uploadLoop_answer {n w : ℤ} {json json' : SsdsJsonCreate}
    (h : uploadLoop senv u n fuel w json sv = .ok (json', sv')) :
    (json' = json ∧ sv'.clientEnd = sv.clientEnd) ∨ json' = writeErrorMessage u json := by
  induction fuel generalizing w sv with
  | zero => cases h
  | succ fuel ih =>
    obtain ⟨g, x, t, -, -, hends⟩ := uploadLoop_ok_iff.1 h
    have hstored : (sv.stored u t (frameData g x)).clientEnd = sv.clientEnd := by
      obtain ⟨f, _, _, _⟩ := u
      cases f <;> rfl
    rcases hends with ⟨-, -, hjson, hsv⟩ | ⟨-, -, hrest⟩ | ⟨-, hjson, -⟩
    · rw [hsv]
      exact Or.inl ⟨hjson, hstored⟩
    · rcases ih hrest with ⟨hjson, hend⟩ | herror
      · exact Or.inl ⟨hjson, hend.trans hstored⟩
      · exact Or.inr herror
    · exact Or.inr hjson

/-- **An upload that is acknowledged** leaves the session going, and the cache as it is. -/
theorem uploadBranch_acknowledged {json : SsdsJsonRead} {status : Errors} {r : Json}
    (h : uploadBranch senv (uploadOf f) fuel (ssdsJsCrInit .answerOk) json sv = .ok (status, sv'))
    (hsent : sv'.sent = sv.sent ++ [r]) (hr : replyCode r = .ok Code.answerOk.num) :
    status = .ok ∧ sv'.clientEnd = sv.clientEnd ∧ sv'.cache = sv.cache := by
  have hlost : ∀ msg, sv'.sent = sv.sent ++ [ssdsJsCrToString (ssdsJsCrSetMessage
      (ssdsJsCrInsertCode (ssdsJsCrInit .answerOk) .answerError) msg)] → False := by
    intro msg hmsg
    rw [hsent] at hmsg
    have heq := List.append_cancel_left hmsg
    rw [(List.cons.inj heq).1, replyCode_error] at hr
    cases hr
  have h' := h
  unfold uploadBranch at h'
  obtain ⟨n, hn, -⟩ := bind_eq_ok.1 h'
  rcases (uploadBranch_ok_iff hn).1 h with ⟨-, hst, js', sv₁, hloop, rfl⟩ | ⟨-, -, rfl⟩
  · have hframe := (UploadFrame.opened sv).trans (uploadLoop_frame hloop)
    rcases uploadLoop_answer hloop with ⟨-, hend⟩ | hjs
    · have hopened : (sv.setFile (uploadOf f).file []).tock.clientEnd = sv.clientEnd := by
        cases f <;> rfl
      exact ⟨hst, hend.trans hopened, hframe.cache⟩
    · refine absurd (hlost (uploadOf f).writeError ?_) id
      rw [Server.reply, hframe.sent, hjs]
      rfl
  · exact absurd (hlost (uploadOf f).createError rfl) id

/-- **An upload on a connection**: the server has sent one reply, which the client has taken. -/
theorem Link.Ready.upload_recv (hch : ch.Reliable) (hready : l.Ready) (f : UploadFile)
    (file : List Byte) {del : Delivery} {l' : Link}
    (h : Link.recv ch senv fuel
      { l with message := some (headerDoc f file.length), data := file } = (.ok del, l')) :
    ∃ status r, uploadBranch senv (uploadOf f) fuel (ssdsJsCrInit .answerOk)
        (.ofRoot (some (headerDoc f file.length)))
        (Link.fed ch (headerDoc f file.length)
          { l with message := some (headerDoc f file.length), data := file }) = .ok (status, l'.server) ∧
      l'.server.sent = [r] ∧ del = .document (some r) ∧ l'.replies = [] ∧
        l'.ended = (status ≠ .ok || l'.server.clientEnd : Bool) := by
  set l₀ : Link := { l with message := some (headerDoc f file.length), data := file } with hl₀
  have hmsg : l₀.message = some (headerDoc f file.length) := rfl
  have hserved : serverDelivery senv fuel (ch.up l₀.served (headerDoc f file.length))
      (senv.fresh l₀.server.tick) (l₀.fed ch (headerDoc f file.length)) =
        uploadBranch senv (uploadOf f) fuel (ssdsJsCrInit .answerOk)
          (.ofRoot (some (headerDoc f file.length))) (l₀.fed ch (headerDoc f file.length)) := by
    rw [hch.up]
    exact serverSwitch_upload (sendFileHeader_code f file.length) (l₀.fed ch (headerDoc f file.length))
  cases hb : uploadBranch senv (uploadOf f) fuel (ssdsJsCrInit .answerOk)
      (.ofRoot (some (headerDoc f file.length))) (l₀.fed ch (headerDoc f file.length)) with
  | error e =>
    obtain ⟨l₁, hrecv, -⟩ := Link.recv_error hmsg hready.replies hready.ended (hserved.trans hb)
    rw [hrecv] at h
    cases h
  | ok p =>
    obtain ⟨status, sv'⟩ := p
    obtain ⟨solves, hrecv⟩ := Link.recv_ok hmsg hready.replies hready.ended (hserved.trans hb)
    obtain ⟨⟨r, hsent⟩, -⟩ := uploadBranch_frame hb
    have hone : sv'.sent = [r] := hsent
    unfold Link.reply at hrecv
    simp only [hone, hch.down] at hrecv
    rw [hrecv] at h
    cases h
    exact ⟨status, r, rfl, hone, rfl, rfl, rfl⟩

/-- An upload taken for acknowledged: the client may write again. -/
theorem Link.Ready.uploaded (hch : ch.Reliable) (hready : l.Ready) (f : UploadFile)
    (file : List Byte) {del : Delivery} {l' : Link} {fresh : SsdsJsonRead}
    (h : Link.recv ch senv fuel
      { l with message := some (headerDoc f file.length), data := file } = (.ok del, l'))
    (hok : sendFileReply fresh del = .ok .ok) :
    l'.Ready ∧ l'.server.cache = l.server.cache := by
  obtain ⟨status, r, hb, hsent, rfl, hreplies, hended⟩ := hready.upload_recv hch f file h
  obtain ⟨hst, hend, hcache⟩ := uploadBranch_acknowledged hb hsent (sendFileReply_ok hok)
  have hopen : l'.server.clientEnd = false := hend.trans hready.clientEnd
  refine ⟨⟨hreplies, ?_, hopen⟩, hcache⟩
  rw [hended, hst, hopen]
  rfl

/-- The client has made no request yet. -/
def Unasked {σ : Type} (r : ClientRun σ) : Prop := ∀ op, ClientEvent.request op ∉ r.trace

/-- **Where a run is before its request**, on a server whose cache is `cache`. -/
structure Preparing (cache : Cache) (r : ClientRun Link) : Prop where
  unasked : Unasked r
  ready : r.conn.Ready
  cache : r.conn.server.cache = cache

variable {cache : Cache}

theorem Unasked.recorded {σ : Type} {r r' : ClientRun σ} (h : Unasked r) {e : ClientEvent}
    (he : ∀ op, e ≠ .request op) (ht : r'.trace = r.trace ++ [e]) : Unasked r' := by
  intro op hop
  rw [ht] at hop
  rcases List.mem_append.1 hop with hop | hop
  · exact h op hop
  · exact he op (List.mem_singleton.1 hop).symm

theorem ssdsSendFile_prepares (hch : ch.Reliable) (f : UploadFile) :
    Triple (Preparing cache) (ssdsSendFile (Link.peer ch senv fuel) cenv f)
      (fun st r => Unasked r ∧ (st = .ok → Preparing cache r)) Unasked := by
  refine Triple.of_forall fun r hr => ?_
  unfold ssdsSendFile
  refine Triple.get_bind ?_
  cases r.machine.original f with
  | none => exact Triple.pure ⟨hr.unasked, by intro h; cases h⟩
  | some file =>
    unfold record
    refine Triple.modify_bind (Triple.modify_bind ?_)
    simp only [writeFile_eq]
    have hup : ∀ r' : ClientRun Link, r'.trace = r.trace ++ [.upload f] → Unasked r' :=
      fun _ ht => hr.unasked.recorded (by intro op h; cases h) ht
    refine Triple.bind ((receive_triple _).weaken (fun _ _ h => h) ?_) ?_
    · rintro r' ⟨e, l', -, rfl⟩
      exact hup _ rfl
    · rintro ⟨fresh, d⟩ r' ⟨l', hrecv, rfl⟩
      unfold lift
      refine Triple.mk_bind ?_ fun _ _ => hup _ rfl
      intro status hstatus
      by_cases hok : status = .ok
      · rw [hok] at hstatus
        obtain ⟨hready, hcache⟩ := hr.ready.uploaded hch f file hrecv hstatus
        rw [if_pos hok]
        refine Triple.modify_bind (Triple.pure ?_)
        have hacked : Unasked (ClientRun.mk l' r.machine r.stdin (r.received + 1)
            (r.trace ++ [.upload f] ++ [.acknowledged f]) r.answer) :=
          (hup ⟨l', r.machine, r.stdin, r.received + 1, _, r.answer⟩ rfl).recorded (by intro op h; cases h) rfl
        exact ⟨hacked, fun _ => ⟨hacked, hready, hcache.trans hr.cache⟩⟩
      · rw [if_neg hok]
        exact Triple.pure ⟨hup _ rfl, fun h => absurd h hok⟩

/-- **The uploads** make no request, and leave the connection ready for one. -/
theorem uploads_prepare (hch : ch.Reliable) :
    Uploads (Link.peer ch senv fuel) cenv (Preparing cache) Unasked Unasked where
  stops _ hr := hr.unasked
  halts _ hr := hr.unasked
  stdin _ _ hr := ⟨hr.unasked, hr.ready, hr.cache⟩
  copied r f backup hr := by
    have hun : Unasked { r with machine := { r.machine with backup }, trace := r.trace ++ [.copied f] } :=
      hr.unasked.recorded (by intro op h; cases h) rfl
    exact ⟨hun, hr.ready, hr.cache⟩
  sends := ssdsSendFile_prepares hch

/-- A run up to its request. -/
def upToRequest {σ : Type} (P : Peer σ) (cenv : ClientEnv) (s : ClientRun σ) :
    Except Halt (Option Errors) × ClientRun σ :=
  (checkId P cenv).run.run s

/-- **A session in messages**: a run that makes its request ends as the outcome. -/
theorem clientMain_endsAs (hch : ch.Reliable) (haction : cenv.effective.action = some operation)
    (hrepos : cenv.repos = some (repos.map SsdsRepoInfo.entry)) (hvalid : ∀ r ∈ repos, r.Valid)
    {s : ClientRun Link} (hs : Preparing cache s)
    (hasked : ¬ Unasked ((clientMain (Link.peer ch senv fuel) cenv).run.run s).2) :
    EndsAs ((clientMain (Link.peer ch senv fuel) cenv).run.run s)
      (senv.outcome ((upToRequest (Link.peer ch senv fuel) cenv s).2.conn.server.tick + 1) cache
        operation cenv repos (upToRequest (Link.peer ch senv fuel) cenv s).2.stdin) := by
  have hcheck := (@uploads_prepare ch senv fuel cenv cache hch).checkId s hs
  unfold clientMain at hasked ⊢
  cases hrun : (checkId (Link.peer ch senv fuel) cenv).run.run s with
  | mk o r =>
    have hup : upToRequest (Link.peer ch senv fuel) cenv s = (o, r) := hrun
    rw [hrun] at hcheck
    rw [hup]
    cases o with
    | error e =>
      rw [run_bind_error hrun] at hasked
      exact absurd hcheck hasked
    | ok o =>
      rw [run_bind_ok hrun] at hasked ⊢
      obtain ⟨hun, hprep⟩ := hcheck
      cases o with
      | some status => exact absurd hun hasked
      | none =>
        have hp := hprep rfl
        simp only [haction]
        rw [← hp.cache]
        exact requestCommand_endsAs hch (Command.action_mem haction) hrepos hvalid hp.ready

/-! ## Byte by byte -/

theorem Wire.channel_reliable (w : Wire) : w.channel.Reliable := ⟨fun _ _ => rfl, fun _ _ => rfl⟩

/-- A connection that is lost on the way to the request stays lost. -/
theorem clientMain_gone {σ : Type} {P : Peer σ} {gone : σ → Prop} (hk : P.Keeping gone)
    {s : ClientRun σ} (h : ConnGone gone (upToRequest P cenv s).2) :
    ConnGone gone ((clientMain P cenv).run.run s).2 := by
  unfold upToRequest at h
  unfold clientMain
  cases hrun : (checkId P cenv).run.run s with
  | mk o r =>
    rw [hrun] at h
    cases o with
    | error e =>
      rw [run_bind_error hrun]
      exact h
    | ok o =>
      rw [run_bind_ok hrun]
      exact rest_stays hk o r h

/-- **A session ends as its outcome**: whatever repositories, packages and files the client has,
and however the bytes are cut, a run that makes its request comes to the decision about these
repositories and packages, and does about it what the user says. -/
theorem session_outcome (w : Wire) (senv : Env) (fuel : ℕ) (hempty : senv.load [] = some none)
    (cenv : ClientEnv) (haction : cenv.effective.action = some operation)
    (hrepos : cenv.repos = some (repos.map SsdsRepoInfo.entry)) (hvalid : ∀ r ∈ repos, r.Valid)
    (sv : Server) (m : Machine) (hshort : m.Short) (stdin : List Char)
    (hintact : (runOn (Duplex.peer w senv fuel) cenv (.accept sv) m stdin).2.conn.intact)
    (hasked : ¬ Unasked (runOn (Duplex.peer w senv fuel) cenv (.accept sv) m stdin).2) :
    let asking := (upToRequest (Duplex.peer w senv fuel) cenv ⟨.accept sv, m, stdin, 0, [], none⟩).2
    EndsAs (runOn (Duplex.peer w senv fuel) cenv (.accept sv) m stdin)
      (senv.outcome (asking.conn.server.tick + 1) sv.cache operation cenv repos asking.stdin) := by
  intro asking
  set s : ClientRun Duplex := ⟨.accept sv, m, stdin, 0, [], none⟩ with hs
  have hsim : Simulates (Duplex.peer w senv fuel) (Link.peer w.channel senv fuel) Torn (Idle senv)
      (Tied senv) Broken := duplex_simulates hempty
  have hidle : Idle senv s.conn (Link.accept sv) := Idle.accept sv
  -- both sessions come to the same request
  have hmid : asking.stdin = (upToRequest (Link.peer w.channel senv fuel) cenv
        (s.over (Link.accept sv))).2.stdin ∧
      asking.conn.server.tick = (upToRequest (Link.peer w.channel senv fuel) cenv
        (s.over (Link.accept sv))).2.conn.server.tick := by
    have hcheck := @checkId_coupled _ _ _ _ _ _ _ _ cenv _ s hsim hidle hshort
    rcases hcheck with hgone | hagree
    · exact absurd hintact (clientMain_gone duplex_keeping hgone)
    · have hsame : ∀ (s' : ClientRun Duplex) (t' : ClientRun Link), Paired Broken s' t' →
          s'.stdin = t'.stdin ∧ s'.conn.server.tick = t'.conn.server.tick := fun s' t' h =>
        ⟨h.sameRun.stdin, (congrArg Server.tick h.sameRun.server).symm⟩
      exact hagree.states (fun _ s' t' h => hsame s' t' (h.mono fun _ _ hi => hi.1.broken)) hsame
  have hcoupled := @clientMain_coupled _ _ _ _ _ _ _ _ cenv _ s hsim hidle hshort
  rcases hcoupled with hgone | hagree
  · exact absurd hintact hgone
  · have hsame : SameRun ((clientMain (Duplex.peer w senv fuel) cenv).run.run s).2
        ((clientMain (Link.peer w.channel senv fuel) cenv).run.run (s.over (Link.accept sv))).2 :=
      Paired.sameRun (hagree.states (fun _ _ _ h => h.mono fun _ _ => Tied.broken) fun _ _ h => h)
    have hprep : Preparing sv.cache (s.over (Link.accept sv)) :=
      ⟨fun _ => List.not_mem_nil, ⟨rfl, rfl, rfl⟩, rfl⟩
    have hasked' : ¬ Unasked ((clientMain (Link.peer w.channel senv fuel) cenv).run.run
        (s.over (Link.accept sv))).2 := by
      intro hun
      refine hasked fun op hop => hun op ?_
      rw [← hsame.trace]
      exact hop
    have hends := @clientMain_endsAs repos operation w.channel senv fuel cenv sv.cache
      w.channel_reliable haction hrepos hvalid _ hprep hasked'
    rw [← hmid.1, ← hmid.2] at hends
    exact ⟨hagree.result.trans hends.result, fun a ha => hsame.stdin.trans (hends.stdin a ha),
      fun a ha => hsame.answer.trans (hends.answer a ha)⟩

/-- The client that is new to the server, at its request. -/
def freshAsking : ClientRun Duplex :=
  (upToRequest (Duplex.peer sessionWire sessionEnv 5) plainSession.client
    ⟨.accept (plainServer ⟨[], false⟩), freshMachine, [], 0, [], none⟩).2

theorem freshRun_asked : ¬ Unasked freshRun.2 := by
  intro h
  have hlast : freshRun.2.trace.getLast? = some (.request .getInstall) := by decide +kernel
  exact h .getInstall (List.mem_of_getLast? hlast)

theorem session_outcome_fresh :
    EndsAs freshRun (sessionEnv.outcome (freshAsking.conn.server.tick + 1)
      (plainServer ⟨[], false⟩).cache .getInstall plainSession.client [] freshAsking.stdin) :=
  session_outcome sessionWire sessionEnv 5 rfl plainSession.client rfl rfl (fun _ => by simp)
    (plainServer ⟨[], false⟩) freshMachine freshMachine_short [] freshRun_intact freshRun_asked

end Rds
