import Rds.Lib.Feed
import Rds.Proof.ServerRun
import Rds.Spec.Visit

/-!
# A session of the server in bursts

The server deals with what is there and waits for more. What it has dealt with does not depend on
what comes later, so a session in bursts is the session of `ssds_server_accept_connection` on all
the reads.

* `Server.later`: a server with more behind what it reads and before what it has sent.
* `serverTurn_oblivious`: no call notices.
* `serveAll_comes`, `sessionLoop_comes`: the bursts and the session take the same turns.
-/

namespace Rds

open Framing Feed

variable {env : Env} {u : Upload} {fuel : ℕ} {sv sv' : Server} {s t : Sock}

/-! ## More of the connection -/

/-- The reads behind those of a connection, and whether they are the last. A connection that is
closed gets no more. -/
def Sock.later (rs : List ReadRes) (closed : Bool) (s : Sock) : Sock :=
  if s.closed then s else ⟨s.reads ++ rs, closed⟩

/-- What was sent before, what comes later, and whether this is the end. -/
structure Around where
  before : List Json
  reads : List ReadRes
  closed : Bool

def Server.later (a : Around) (sv : Server) : Server :=
  { sv with sock := sv.sock.later a.reads a.closed, sent := a.before ++ sv.sent }

variable {a : Around}

theorem pull_later {r : ReadRes} (rs : List ReadRes) (closed : Bool) (h : pull s = some (r, t)) :
    pull (s.later rs closed) = some (r, t.later rs closed) := by
  rcases pull_cases h with ⟨rest, hr, rfl⟩ | ⟨hr, hc, rfl, rfl⟩
  · unfold Sock.later
    by_cases hc : s.closed = true
    · rw [if_pos hc, if_pos hc]
      exact pull_cons hr
    · rw [if_neg hc, if_neg hc]
      exact pull_cons (by rw [hr]; rfl)
  · unfold Sock.later
    rw [if_pos hc]
    exact pull_closed hr hc

theorem SockFrame.later {g : List ReadRes} {x : ReadRes} (h : SockFrame s g x t)
    (rs : List ReadRes) (closed : Bool) : SockFrame (s.later rs closed) g x (t.later rs closed) := by
  have hpull : ∀ s r t, pull s = some (r, t) →
      pull (Sock.later rs closed s) = some (r, Sock.later rs closed t) :=
    fun _ _ _ => pull_later rs closed
  exact Frame.map hpull h

/-! ## No call notices -/

theorem Server.stored_later (t : Sock) (data : List Byte) :
    (sv.later a).stored u (t.later a.reads a.closed) data = (sv.stored u t data).later a := by
  obtain ⟨f, _, _, _⟩ := u
  cases f <;> rfl

theorem fwriteFile_later (t : Sock) (f : UploadFile) (n : ℤ) (buf : Option (List Byte)) :
    fwriteFile env { sv.later a with sock := t.later a.reads a.closed } f n buf =
      ((fwriteFile env { sv with sock := t } f n buf).1,
        (fwriteFile env { sv with sock := t } f n buf).2.later a) := by
  unfold fwriteFile
  by_cases h0 : n < 0
  · simp only [if_pos h0]
    rfl
  · simp only [if_neg h0]
    cases f <;> rfl

theorem uploadLoop_later {n w : ℤ} {json json' : SsdsJsonCreate}
    (h : uploadLoop env u n fuel w json sv = .ok (json', sv')) :
    uploadLoop env u n fuel w json (sv.later a) = .ok (json', sv'.later a) := by
  induction fuel generalizing w sv with
  | zero => cases h
  | succ fuel ih =>
    obtain ⟨g, x, t, hf, hl, h⟩ := uploadLoop_ok_iff.1 h
    refine uploadLoop_ok_iff.2 ⟨g, x, _, hf.later a.reads a.closed, hl, ?_⟩
    rcases h with ⟨hs, hn, hjson, rfl⟩ | ⟨hs, hn, h⟩ | ⟨hs, hjson, rfl⟩
    · exact Or.inl ⟨hs, hn, hjson, (Server.stored_later t _).symm⟩
    · refine Or.inr (Or.inl ⟨hs, hn, ?_⟩)
      rw [Server.stored_later]
      exact ih h
    · refine Or.inr (Or.inr ⟨hs, hjson, ?_⟩)
      rw [fwriteFile_later]
      rfl

theorem uploadBranch_later {js : SsdsJsonCreate} {json : SsdsJsonRead} {status : Errors}
    (h : uploadBranch env u fuel js json sv = .ok (status, sv')) :
    uploadBranch env u fuel js json (sv.later a) = .ok (status, sv'.later a) := by
  have hreply : ∀ (sv : Server) js, (sv.later a).reply js = (sv.reply js).later a := by
    intro sv js
    unfold Server.reply Server.later
    rw [List.append_assoc]
  have h' := h
  unfold uploadBranch at h'
  obtain ⟨n, hn, -⟩ := bind_eq_ok.1 h'
  refine (uploadBranch_ok_iff hn).2 ?_
  rcases (uploadBranch_ok_iff hn).1 h with ⟨ho, hst, js', sv₁, hloop, rfl⟩ | ⟨ho, hst, rfl⟩
  · refine Or.inl ⟨ho, hst, js', sv₁.later a, ?_, (hreply sv₁ js').symm⟩
    have hopened : ((sv.later a).setFile u.file []).tock = (sv.setFile u.file []).tock.later a := by
      cases u.file <;> rfl
    rw [hopened]
    exact uploadLoop_later hloop
  · exact Or.inr ⟨ho, hst, (hreply sv.tock _).symm⟩

theorem getBranch_later {op : Code} {js : SsdsJsonCreate} {json : SsdsJsonRead} {status : Errors}
    (h : getBranch env op js json sv = .ok (status, sv')) :
    getBranch env op js json (sv.later a) = .ok (status, sv'.later a) := by
  unfold getBranch at h ⊢
  obtain ⟨p, hp, h⟩ := bind_eq_ok.1 h
  obtain ⟨list, hl, h⟩ := bind_eq_ok.1 h
  obtain ⟨r, hr, h⟩ := bind_eq_ok.1 h
  refine bind_eq_ok.2 ⟨p, hp, bind_eq_ok.2 ⟨list, hl, bind_eq_ok.2 ⟨r, hr, ?_⟩⟩⟩
  cases h
  simp only [Server.reply, Server.later, Server.tock, List.append_assoc]
  rfl

theorem serverSwitch_later {json : SsdsJsonRead} {status : Errors}
    (h : serverSwitch env fuel json sv = .ok (status, sv')) :
    serverSwitch env fuel json (sv.later a) = .ok (status, sv'.later a) := by
  have h' := h
  unfold serverSwitch at h'
  obtain ⟨c, hcode, -⟩ := bind_eq_ok.1 h'
  rcases code_cases c with ⟨f, rfl⟩ | ⟨op, hop, rfl⟩ | rfl | hu
  · rw [serverSwitch_upload hcode] at h ⊢
    exact uploadBranch_later h
  · rw [serverSwitch_get hop hcode] at h ⊢
    exact getBranch_later h
  · rw [serverSwitch_dependency hcode] at h ⊢
    cases h
    simp only [Server.reply, Server.later, List.append_assoc]
  · rw [serverSwitch_unserved hcode hu] at h ⊢
    cases h
    rfl

/-- **A call that returned** does the same with more to come. -/
theorem ssdsServerProcess_later {status : Errors}
    (h : ssdsServerProcess env fuel sv = .ok (status, sv')) :
    ssdsServerProcess env fuel (sv.later a) = .ok (status, sv'.later a) := by
  obtain ⟨buf, t, hr, hm⟩ := ssdsServerProcess_ok_iff.1 h
  obtain ⟨g, x, hf, hl, hbuf⟩ := sockRecv_iff.1 hr
  refine ssdsServerProcess_ok_iff.2 ⟨buf, t.later a.reads a.closed,
    sockRecv_iff.2 ⟨g, x, hf.later a.reads a.closed, hl, hbuf⟩, ?_⟩
  cases buf with
  | none =>
    cases hm
    rfl
  | some b =>
    rw [serverMessage_some] at hm ⊢
    have hmore := @serverSwitch_later _ _ _ _ a _ _ hm
    exact hmore

/-! ## Turns -/

/-- A turn of the session: a call, and whether it lets the client go. -/
def serverTurn (env : Env) (fuel : ℕ) (sv : Server) : Except Halt (Bool × Server) := do
  let (status, sv) ← ssdsServerProcess env fuel sv
  return (status ≠ .ok || sv.clientEnd, sv)

theorem serverTurn_ok_iff {b : Bool} : serverTurn env fuel sv = .ok (b, sv') ↔
    ∃ status, ssdsServerProcess env fuel sv = .ok (status, sv') ∧
      b = (status ≠ .ok || sv'.clientEnd : Bool) := by
  unfold serverTurn
  rw [bind_eq_ok]
  constructor
  · rintro ⟨⟨status, sv₁⟩, hp, h⟩
    cases h
    exact ⟨status, hp, rfl⟩
  · rintro ⟨status, hp, rfl⟩
    exact ⟨(status, sv'), hp, rfl⟩

theorem serverTurn_oblivious : Oblivious Server.later (serverTurn env fuel) := by
  intro a sv b sv' h
  obtain ⟨status, hp, rfl⟩ := serverTurn_ok_iff.1 h
  exact serverTurn_ok_iff.2 ⟨status, ssdsServerProcess_later hp, rfl⟩

/-- A turn that is not the last leaves the client there. -/
theorem goes_spec (h : Goes (serverTurn env fuel) sv sv') :
    ssdsServerProcess env fuel sv = .ok (.ok, sv') ∧ sv'.clientEnd = false := by
  obtain ⟨status, hp, hb⟩ := serverTurn_ok_iff.1 h
  obtain ⟨hst, hc⟩ := Bool.or_eq_false_iff.1 hb.symm
  have hok : status = .ok := by simpa using hst
  rw [hok] at hp
  exact ⟨hp, hc⟩

theorem goAll_clientEnd (h : Relation.ReflTransGen (Goes (serverTurn env fuel)) sv sv')
    (hc : sv.clientEnd = false) : sv'.clientEnd = false := by
  induction h with
  | refl => exact hc
  | tail _ hstep _ => exact (goes_spec hstep).2

/-- **A burst** takes turns of the session. -/
theorem serveAll_comes {n : ℕ} {b : Bool} (h : serveAll env fuel n sv = .ok (b, sv')) :
    Comes (serverTurn env fuel) sv b sv' := by
  induction n generalizing sv with
  | zero => cases h
  | succ n ih =>
    rw [serveAll] at h
    by_cases hdry : sv.sock.reads = []
    · rw [if_pos hdry] at h
      cases h
      exact Comes.refl _
    · rw [if_neg hdry] at h
      obtain ⟨⟨status, sv₁⟩, hp, h⟩ := bind_eq_ok.1 h
      by_cases hend : status ≠ .ok ∨ sv₁.clientEnd = true
      · have hlast : serverTurn env fuel sv = .ok (true, sv₁) :=
          serverTurn_ok_iff.2 ⟨status, hp, by simpa using hend⟩
        simp only [if_pos hend] at h
        cases h
        exact Comes.of_turn hlast
      · have hgo : serverTurn env fuel sv = .ok (false, sv₁) :=
          serverTurn_ok_iff.2 ⟨status, hp, by simpa using hend⟩
        simp only [if_neg hend] at h
        exact (Comes.of_turn hgo).trans (ih h)

/-- A session returns `p`, given steps enough. -/
def SessionReturns (env : Env) (sv : Server) (p : Errors × Server) : Prop :=
  ∃ n, sessionLoop env n sv = .ok p

theorem goes_sessionReturns (h : Goes (serverTurn env fuel) sv sv') (hc : sv.clientEnd = false)
    (p : Errors × Server) : SessionReturns env sv p ↔ SessionReturns env sv' p := by
  obtain ⟨hp, -⟩ := goes_spec h
  constructor
  · rintro ⟨n, hn⟩
    obtain ⟨n, rfl⟩ : ∃ m, n = m + 1 := Nat.exists_eq_succ_of_ne_zero (by rintro rfl; cases hn)
    obtain ⟨status, sv₁, hp₁, hrest⟩ := (sessionLoop_ok_iff hc).1 hn
    -- both calls come to the same
    have hsame := ssdsServerProcess_mono (le_max_left n fuel) hp₁
    rw [ssdsServerProcess_mono (le_max_right n fuel) hp] at hsame
    cases hsame
    rcases hrest with ⟨-, hrest⟩ | ⟨hne, -⟩
    · exact ⟨n, hrest⟩
    · exact absurd rfl hne
  · rintro ⟨n, hn⟩
    refine ⟨max n fuel + 1, (sessionLoop_ok_iff hc).2 ⟨.ok, sv', ?_, Or.inl ⟨rfl, ?_⟩⟩⟩
    · exact ssdsServerProcess_mono (le_max_right n fuel) hp
    · exact sessionLoop_mono (le_max_left n fuel) hn

theorem goAll_sessionReturns (h : Relation.ReflTransGen (Goes (serverTurn env fuel)) sv sv')
    (hc : sv.clientEnd = false) (p : Errors × Server) :
    SessionReturns env sv p ↔ SessionReturns env sv' p := by
  induction h with
  | refl => exact Iff.rfl
  | tail hgo hstep ih => exact ih.trans (goes_sessionReturns hstep (goAll_clientEnd hgo hc) p)

/-- **A session that is not over** goes on from where its bursts have come to. -/
theorem comes_sessionReturns (h : Comes (serverTurn env fuel) sv false sv')
    (hc : sv.clientEnd = false) (p : Errors × Server) :
    SessionReturns env sv p ↔ SessionReturns env sv' p := goAll_sessionReturns h hc p

/-- **A session whose bursts are over** returns. -/
theorem comes_last (h : Comes (serverTurn env fuel) sv true sv')
    (hc : sv.clientEnd = false) : ∃ status, SessionReturns env sv (status, sv') := by
  obtain ⟨sv₁, hgo, hlast⟩ := h
  obtain ⟨status, hp, hb⟩ := serverTurn_ok_iff.1 hlast
  refine ⟨status, (goAll_sessionReturns hgo hc (status, sv')).2 ⟨fuel + 2, ?_⟩⟩
  have hp' := ssdsServerProcess_mono (Nat.le_succ fuel) hp
  refine (sessionLoop_ok_iff (goAll_clientEnd hgo hc)).2 ⟨status, sv', hp', ?_⟩
  by_cases hst : status = .ok
  · have hend : sv'.clientEnd = true := by simpa [hst] using hb.symm
    rw [hst]
    exact Or.inl ⟨rfl, sessionLoop_clientEnd hend⟩
  · exact Or.inr ⟨hst, rfl⟩

end Rds
