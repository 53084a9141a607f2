import Rds.Proof.Session
import Rds.Spec.Perils

/-!
# When a session ends

The client has sent what it sends and closed, so that every read past the end returns 0.
The session returns exactly if some message that begins before the end lets it go
(`Ends`), and nothing ends the program before: the receive loops end at a read of 0 bytes, but
the loop of an upload and the loop of the session take it for progress and turn forever.

* `uploadLoop_receives`, `Receives.uploadLoop`: an upload's loop returns exactly if the
  frames it reads reach its count or one of them is not stored.
* `sessionLoop_eof`: past the end, the session never returns.
* `Perils.sessionLoop_ends`, `Ends.sessionLoop`: a session that returns was let go by a message, and
  spared, and conversely.
* `session_returns_iff`: the exact condition.
-/

namespace Rds

variable {env : Env} {u : Upload} {cache : Cache}

/-! ## The loop of an upload -/

/-- **The frames of an upload of `n` bytes**, `w` of them counted, from the `k`-th question
on: they end it by its count (`true`) or with one that is not stored (`false`). -/
inductive Receives (env : Env) (n : ℤ) : ℕ → ℤ → Sock → Bool → ℕ → Sock → Prop
  | full {k w s g x t} : SockFrame s g x t → g.length < recvLimit → 0 ≤ frameRet g x →
      frameRet g x ≤ env.fwrite k → toInt (w + frameRet g x) = n →
      Receives env n k w s true (k + 1) t
  | more {k w s g x t b j t'} : SockFrame s g x t → g.length < recvLimit → 0 ≤ frameRet g x →
      frameRet g x ≤ env.fwrite k → toInt (w + frameRet g x) ≠ n →
      Receives env n (k + 1) (toInt (w + frameRet g x)) t b j t' → Receives env n k w s b j t'
  | fails {k w s g x t} : SockFrame s g x t → g.length < recvLimit →
      ¬ (0 ≤ frameRet g x ∧ frameRet g x ≤ env.fwrite k) → Receives env n k w s false (k + 1) t

@[simp] theorem Server.stored_tick (sv : Server) (u : Upload) (t : Sock) (data : List Byte) :
    (sv.stored u t data).tick = sv.tick + 1 := by
  obtain ⟨f, _, _, _⟩ := u
  cases f <;> rfl

@[simp] theorem Server.stored_clientEnd (sv : Server) (u : Upload) (t : Sock) (data : List Byte) :
    (sv.stored u t data).clientEnd = sv.clientEnd := by
  obtain ⟨f, _, _, _⟩ := u
  cases f <;> rfl

theorem fwriteFile_tick (sv : Server) (f : UploadFile) (n : ℤ) (buf : Option (List Byte)) :
    (fwriteFile env sv f n buf).2.tick = sv.tick + 1 := by
  unfold fwriteFile
  split
  · rfl
  · cases f <;> rfl

theorem fwriteFile_sock (sv : Server) (f : UploadFile) (n : ℤ) (buf : Option (List Byte)) :
    (fwriteFile env sv f n buf).2.sock = sv.sock := by
  unfold fwriteFile
  split
  · rfl
  · cases f <;> rfl

/-- How an upload that ended leaves the server, and what it answers. -/
structure UploadEnd (u : Upload) (json : SsdsJsonCreate) (sv : Server) (b : Bool) (j : ℕ) (t : Sock)
    (json' : SsdsJsonCreate) (sv' : Server) : Prop where
  tick : sv'.tick = j
  sock : sv'.sock = t
  clientEnd : sv'.clientEnd = (!b || sv.clientEnd)
  json : json' = if b then json else writeErrorMessage u json

theorem uploadLoop_receives {n w : ℤ} {fuel : ℕ} {json json' : SsdsJsonCreate} {sv sv' : Server}
    (h : uploadLoop env u n fuel w json sv = .ok (json', sv')) :
    ∃ b j t, Receives env n sv.tick w sv.sock b j t ∧ UploadEnd u json sv b j t json' sv' := by
  induction fuel generalizing w sv with
  | zero => cases h
  | succ fuel ih =>
    obtain ⟨g, x, t, hf, hl, h⟩ := uploadLoop_ok_iff.1 h
    rcases h with ⟨hs, hn, rfl, rfl⟩ | ⟨hs, hn, h⟩ | ⟨hs, rfl, rfl⟩
    · exact ⟨true, _, _, .full hf hl hs.1 hs.2 hn, by simp, by simp, by simp, by simp⟩
    · obtain ⟨b, j, t', hr, he⟩ := ih h
      rw [Server.stored_tick, Server.stored_sock] at hr
      exact ⟨b, j, t', .more hf hl hs.1 hs.2 hn hr, he.tick, he.sock, by simpa using he.clientEnd,
        he.json⟩
    · exact ⟨false, _, _, .fails hf hl hs, fwriteFile_tick _ _ _ _, fwriteFile_sock _ _ _ _, by simp,
        by simp⟩

/-- **Frames that end an upload end its loop**, in one way, given steps enough. -/
theorem Receives.uploadLoop {n w : ℤ} {k j : ℕ} {s t : Sock} {b : Bool}
    (h : Receives env n k w s b j t) (u : Upload) (json : SsdsJsonCreate) :
    ∀ sv : Server, sv.tick = k → sv.sock = s → ∃ F json' sv',
      UploadEnd u json sv b j t json' sv' ∧
      ∀ fuel ≥ F, uploadLoop env u n fuel w json sv = .ok (json', sv') := by
  induction h with
  | @full k w s g x t hf hl h0 hw hn =>
    intro sv hk hs
    subst hk hs
    refine ⟨1, json, sv.stored u t (frameData g x), ⟨by simp, by simp, by simp, by simp⟩,
      fun fuel hfuel => ?_⟩
    obtain ⟨fuel, rfl⟩ := Nat.exists_eq_add_of_le' hfuel
    exact (uploadLoop_of_frame hf hl).2 (Or.inl ⟨⟨h0, hw⟩, hn, rfl, rfl⟩)
  | @more k w s g x t b j t' hf hl h0 hw hn _ ih =>
    intro sv hk hs
    subst hk hs
    obtain ⟨F, json', sv', he, hF⟩ := ih (sv.stored u t (frameData g x)) (by simp) (by simp)
    refine ⟨F + 1, json', sv', ⟨he.tick, he.sock, by simpa using he.clientEnd, he.json⟩,
      fun fuel hfuel => ?_⟩
    obtain ⟨fuel, rfl⟩ : ∃ m, fuel = m + 1 := ⟨fuel - 1, by omega⟩
    exact (uploadLoop_of_frame hf hl).2 (Or.inr (Or.inl ⟨⟨h0, hw⟩, hn, hF fuel (by omega)⟩))
  | @fails k w s g x t hf hl hw =>
    intro sv hk hs
    subst hk hs
    refine ⟨1, writeErrorMessage u json, { (fwriteFile env { sv with sock := t } u.file
      (frameRet g x) (frameBuf g x)).2 with clientEnd := true },
      ⟨fwriteFile_tick _ _ _ _, fwriteFile_sock _ _ _ _, by simp, by simp⟩, fun fuel hfuel => ?_⟩
    obtain ⟨fuel, rfl⟩ := Nat.exists_eq_add_of_le' hfuel
    exact (uploadLoop_of_frame hf hl).2 (Or.inr (Or.inr ⟨hw, rfl, rfl⟩))

/-! ## The messages of a session -/

/-- **A message that begins before the end of the stream**, received at the `k`-th question:
the reader it is parsed into and what is left. -/
def MessageAt (env : Env) (k : ℕ) (s : Sock) (json : SsdsJsonRead) (t : Sock) : Prop :=
  s.reads ≠ [] ∧ ∃ g x b, SockFrame s g x t ∧ g.length < recvLimit ∧ frameBuf g x = some b ∧
    json = (ssdsJsRdParse env.load (some b) (env.fresh k)).2

/-- The operations that are solved. -/
def getCodes : List Code := [.getInstall, .getUpdate, .getUpdateAll, .getErase]

/-- A request can be decoded and its query asked. -/
def Serves (env : Env) (cache : Cache) (k : ℕ) (op : Code) (json : SsdsJsonRead) : Prop :=
  ∃ pkgs n list r, requestPkgs (env.slots k) op json = .ok (pkgs, n) ∧
    ssdsJsRdRepoInfo json = .ok list ∧
    ssdsDepQuery (env.hawkey k) pkgs (ssdsJsCrInit .answerOk)
      (env.sack k (ssdsFillSack (ssdsLocateRepoMetadata cache
        (list.zipIdx.map fun r => (r.1, env.download k r.2))).2)) op n = .ok r

/-- A code the server has no branch for. -/
def Unserved (c : ℤ) : Prop :=
  ∀ d ∈ [Code.sendSolv, .sendYumConf, .getDependency] ++ getCodes, c ≠ d.num

/-- **The stream ends its session**: among its messages there is, after unserved ones and
completed uploads, one whose first read fails, a request that is served, or an upload whose
file cannot be created or whose loop stores something no more. The server has written `w` messages
by then, and made an access outside an array if `out` holds. -/
inductive Ends (env : Env) (cache : Cache) : ℕ → Sock → ℕ → Bool → Prop
  | unread {k s t} : SockFrame s [] .err t → Ends env cache k s 0 false
  | served {k s t json op} : MessageAt env k s json t → op ∈ getCodes →
      ssdsJsRdGetCode json = .ok op.num → Serves env cache (k + 1) op json →
      Ends env cache k s 2 (Perils.requestOutside cache (env.download (k + 1)) op json)
  | dependency {k s t json} : MessageAt env k s json t →
      ssdsJsRdGetCode json = .ok Code.getDependency.num → Ends env cache k s 1 false
  | noFile {k s t json f n} : MessageAt env k s json t →
      ssdsJsRdGetCode json = .ok (UploadFile.code f).num → ssdsJsRdGetReadBytes json = .ok n →
      env.fopen (k + 1) = false → Ends env cache k s 1 false
  | failed {k s t json f n j t'} : MessageAt env k s json t →
      ssdsJsRdGetCode json = .ok (UploadFile.code f).num → ssdsJsRdGetReadBytes json = .ok n →
      env.fopen (k + 1) = true → Receives env n (k + 2) 0 t false j t' → Ends env cache k s 1 false
  | uploaded {k s t json f n j t' w out} : MessageAt env k s json t →
      ssdsJsRdGetCode json = .ok (UploadFile.code f).num → ssdsJsRdGetReadBytes json = .ok n →
      env.fopen (k + 1) = true → Receives env n (k + 2) 0 t true j t' → Ends env cache j t' w out →
      Ends env cache k s (1 + w) out
  | unserved {k s t json c w out} : MessageAt env k s json t → ssdsJsRdGetCode json = .ok c →
      Unserved c → Ends env cache (k + 1) t w out → Ends env cache k s (0 + w) out

/-- **The program is not ended** by the `w` messages written from the `n`-th on, nor by the accesses
outside an array, if there were any. -/
def Perils.Conn.Spares (conn : Perils.Conn) (n w : ℕ) (out : Bool) : Prop :=
  (∀ k, n ≤ k → k < n + w → conn.pipe k = false) ∧ ¬ (out = true ∧ conn.damage = true)

/-! ## The switch, by the code -/

theorem serverSwitch_get {fuel : ℕ} {op : Code} (hop : op ∈ getCodes) {json : SsdsJsonRead}
    (h : ssdsJsRdGetCode json = .ok op.num) (sv : Server) :
    serverSwitch env fuel json sv = getBranch env op (ssdsJsCrInit .answerOk) json sv := by
  unfold serverSwitch
  rw [h]
  simp only [getCodes, List.mem_cons, List.not_mem_nil, or_false] at hop
  rcases hop with rfl | rfl | rfl | rfl <;> rfl

theorem serverSwitch_dependency {fuel : ℕ} {json : SsdsJsonRead}
    (h : ssdsJsRdGetCode json = .ok Code.getDependency.num) (sv : Server) :
    serverSwitch env fuel json sv =
      .ok (.ok, { sv.reply (ssdsJsCrInit .answerOk) with clientEnd := true }) := by
  unfold serverSwitch
  rw [h]
  rfl

theorem serverSwitch_unserved {fuel : ℕ} {json : SsdsJsonRead} {c : ℤ}
    (h : ssdsJsRdGetCode json = .ok c) (hc : Unserved c) (sv : Server) :
    serverSwitch env fuel json sv = .ok (.ok, sv) := by
  unfold serverSwitch
  rw [h]
  have hne : ∀ d ∈ [Code.sendSolv, .sendYumConf, .getDependency] ++ getCodes,
      Code.ofNum c ≠ some d := by
    intro d hd hcd
    exact hc d hd (Code.num_of_ofNum hcd).symm
  simp only [getCodes, List.cons_append, List.nil_append, List.forall_mem_cons] at hne
  obtain ⟨h1, h2, h3, h4, h5, h6, h7, -⟩ := hne
  simp only [bind, Except.bind]
  rfl

/-- The four kinds of codes. -/
theorem code_cases (c : ℤ) : (∃ f : UploadFile, c = f.code.num) ∨ (∃ op ∈ getCodes, c = op.num) ∨
    c = Code.getDependency.num ∨ Unserved c := by
  by_cases hc : Unserved c
  · exact Or.inr (Or.inr (Or.inr hc))
  · unfold Unserved at hc
    push Not at hc
    obtain ⟨d, hd, rfl⟩ := hc
    rcases List.mem_append.1 hd with hd | hd
    · simp only [List.mem_cons, List.not_mem_nil, or_false] at hd
      rcases hd with rfl | rfl | rfl
      · exact Or.inl ⟨.solv, rfl⟩
      · exact Or.inl ⟨.yum, rfl⟩
      · exact Or.inr (Or.inr (Or.inl rfl))
    · exact Or.inr (Or.inl ⟨d, hd, rfl⟩)

theorem getBranch_ok_iff {op : Code} {json : SsdsJsonRead} {sv : Server} :
    (∃ r, getBranch env op (ssdsJsCrInit .answerOk) json sv = .ok r) ↔
      Serves env sv.cache sv.tick op json := by
  unfold getBranch Serves
  constructor
  · rintro ⟨r, h⟩
    obtain ⟨⟨pkgs, n⟩, hp, h⟩ := bind_eq_ok.1 h
    obtain ⟨list, hl, h⟩ := bind_eq_ok.1 h
    obtain ⟨q, hq, -⟩ := bind_eq_ok.1 h
    exact ⟨pkgs, n, list, q, hp, hl, hq⟩
  · rintro ⟨pkgs, n, list, q, hp, hl, hq⟩
    refine ⟨_, bind_eq_ok.2 ⟨(pkgs, n), hp, bind_eq_ok.2 ⟨list, hl, bind_eq_ok.2 ⟨q, hq, rfl⟩⟩⟩⟩

/-! ## Whole sessions -/

section
variable {conn : Perils.Conn} {sv : Server} {fuel : ℕ} {r : Errors × Server}

theorem Perils.sessionLoop_ok_iff (hc : sv.clientEnd = false) :
    Perils.sessionLoop env conn (fuel + 1) sv = .ok r ↔
      ∃ st sv', Perils.ssdsServerProcess env conn fuel sv = .ok (st, sv') ∧
        ((st = .ok ∧ Perils.sessionLoop env conn fuel sv' = .ok r) ∨ (st ≠ .ok ∧ r = (st, sv'))) := by
  rw [Perils.sessionLoop]
  simp only [hc, Bool.false_eq_true, if_false]
  rw [bind_eq_ok]
  constructor
  · rintro ⟨⟨st, sv'⟩, hp, h⟩
    refine ⟨st, sv', hp, ?_⟩
    by_cases hst : st = .ok
    · rw [if_pos hst] at h; exact Or.inl ⟨hst, h⟩
    · rw [if_neg hst] at h; cases h; exact Or.inr ⟨hst, rfl⟩
  · rintro ⟨st, sv', hp, ⟨hst, h⟩ | ⟨hst, rfl⟩⟩
    · exact ⟨(st, sv'), hp, by rw [if_pos hst]; exact h⟩
    · exact ⟨(st, sv'), hp, by rw [if_neg hst]; rfl⟩

/-- A session that was let go returns. -/
theorem Perils.sessionLoop_clientEnd (hc : sv.clientEnd = true) :
    Perils.sessionLoop env conn (fuel + 1) sv = .ok (.ok, sv) := by
  rw [Perils.sessionLoop, if_pos hc]; rfl

/-- With nothing to end the program, a call is what it is. -/
theorem Perils.ssdsServerProcess_quiet (sock : Option Sock) (fuel : ℕ) (sv : Server) :
    Perils.ssdsServerProcess env (.quiet sock) fuel sv = Rds.ssdsServerProcess env fuel sv := by
  unfold Perils.ssdsServerProcess
  cases Rds.ssdsServerProcess env fuel sv with
  | error e => rfl
  | ok p =>
    have hpipe : Perils.raises (fun _ => false) sv p.2 = false := by simp [Perils.raises]
    simp [bind, Except.bind, pure, Except.pure, Perils.Conn.quiet, hpipe]

theorem Perils.sessionLoop_quiet (sock : Option Sock) (fuel : ℕ) (sv : Server) :
    Perils.sessionLoop env (.quiet sock) fuel sv = Rds.sessionLoop env fuel sv := by
  induction fuel generalizing sv with
  | zero => rfl
  | succ fuel ih =>
    rw [Perils.sessionLoop, Rds.sessionLoop, Perils.ssdsServerProcess_quiet]
    simp only [ih]

theorem sessionLoop_ok_iff (hc : sv.clientEnd = false) :
    sessionLoop env (fuel + 1) sv = .ok r ↔ ∃ st sv', ssdsServerProcess env fuel sv = .ok (st, sv') ∧
      ((st = .ok ∧ sessionLoop env fuel sv' = .ok r) ∨ (st ≠ .ok ∧ r = (st, sv'))) := by
  simp only [← Perils.sessionLoop_quiet none, ← Perils.ssdsServerProcess_quiet none]
  exact Perils.sessionLoop_ok_iff hc

theorem sessionLoop_clientEnd (hc : sv.clientEnd = true) :
    sessionLoop env (fuel + 1) sv = .ok (.ok, sv) := by
  rw [← Perils.sessionLoop_quiet none]
  exact Perils.sessionLoop_clientEnd hc

end

/-- **Past the end of the stream** every message is empty, has no code and changes nothing. -/
theorem sessionLoop_eof (hempty : env.load [] = some none) {fuel : ℕ} {sv : Server}
    {r : Errors × Server} (hs : sv.sock.reads = []) (hc : sv.clientEnd = false) :
    sessionLoop env fuel sv ≠ .ok r := by
  induction fuel generalizing sv with
  | zero => rw [sessionLoop]; simp
  | succ fuel ih =>
    intro h
    obtain ⟨st, sv', hp, h⟩ := (sessionLoop_ok_iff hc).1 h
    obtain ⟨buf, t, hr, hm⟩ := ssdsServerProcess_ok_iff.1 hp
    obtain ⟨g, x, hf, -, rfl⟩ := sockRecv_iff.1 hr
    -- the next frame is the end of the stream again
    have hx : g = [] ∧ x = .eof ∧ t = sv.sock := by
      cases hf with
      | last hp _ =>
        rcases pull_cases hp with ⟨rs, hrs, -⟩ | ⟨-, -, rfl, rfl⟩
        · rw [hs] at hrs; cases hrs
        · exact ⟨rfl, rfl, rfl⟩
      | more hp hb _ =>
        rcases pull_cases hp with ⟨rs, hrs, -⟩ | ⟨-, -, rfl, -⟩
        · rw [hs] at hrs; cases hrs
        · exact absurd (by decide) hb
    obtain ⟨rfl, rfl, rfl⟩ := hx
    have hcstr : cstr (bytesOf [] ++ ReadRes.eof.block) = [] :=
      cstr_frameBuf (g := []) (x := .eof) rfl
    have hload : env.load (cstr (bytesOf [] ++ ReadRes.eof.block)) = some none := by
      rw [hcstr]; exact hempty
    have hmsg : serverMessage env fuel (frameBuf [] .eof) (env.fresh sv.tick) (sv.received sv.sock) =
        .ok (.ok, sv.received sv.sock) := by
      show serverMessage env fuel (some (bytesOf [] ++ ReadRes.eof.block)) _ _ = _
      rw [serverMessage_some, ssdsJsRdParse_some hload]
      exact serverSwitch_unserved (c := -1) rfl (by unfold Unserved; decide) _
    -- so the state is the same with one step less
    rw [hmsg] at hm
    cases hm
    rcases h with ⟨-, h⟩ | ⟨hst, -⟩
    · exact @ih (sv.received sv.sock) hs hc h
    · exact hst rfl

/-- **An upload branch that returned** could not create its file, or its frames ended the
upload. It has written one message. -/
theorem uploadBranch_receives {fuel : ℕ} {f : UploadFile} {json : SsdsJsonRead} {n : ℤ}
    {sv sv' : Server} {t : Sock} {st : Errors} (hn : ssdsJsRdGetReadBytes json = .ok n)
    (h : uploadBranch env (uploadOf f) fuel (ssdsJsCrInit .answerOk) json (sv.received t) =
      .ok (st, sv')) :
    sv'.sent.length = sv.sent.length + 1 ∧
    (env.fopen (sv.tick + 1) = false ∨ env.fopen (sv.tick + 1) = true ∧ st = .ok ∧
      ∃ b, Receives env n (sv.tick + 2) 0 t b sv'.tick sv'.sock ∧ sv'.cache = sv.cache ∧
        sv'.clientEnd = (!b || sv.clientEnd)) := by
  rcases (uploadBranch_ok_iff hn).1 h with ⟨ho, rfl, js', sv₁, hloop, rfl⟩ | ⟨ho, -, rfl⟩
  · have hframe := (UploadFrame.opened (sv.received t)).trans (uploadLoop_frame hloop)
    obtain ⟨b, j, t', hrec, he⟩ := uploadLoop_receives hloop
    have htick : ((sv.received t).setFile (uploadOf f).file []).tock.tick = sv.tick + 2 := by
      cases f <;> rfl
    have hsock : ((sv.received t).setFile (uploadOf f).file []).tock.sock = t := by
      cases f <;> rfl
    rw [htick, hsock, ← he.tick, ← he.sock] at hrec
    have hsent : sv₁.sent = sv.sent := hframe.sent
    refine ⟨?_, Or.inr ⟨ho, rfl, b, hrec, hframe.cache, ?_⟩⟩
    · rw [Server.sent_reply, hsent, List.length_append]
      rfl
    · show sv₁.clientEnd = _
      rw [he.clientEnd]
      cases f <;> rfl
  · refine ⟨?_, Or.inl ho⟩
    rw [Server.sent_reply, List.length_append]
    rfl

/-- A message received goes to the switch. -/
theorem MessageAt.process {sv : Server} {json : SsdsJsonRead} {t : Sock}
    (h : MessageAt env sv.tick sv.sock json t) (fuel : ℕ) :
    ssdsServerProcess env fuel sv = serverSwitch env fuel json (sv.received t) := by
  obtain ⟨-, g, x, b, hf, hl, hb, rfl⟩ := h
  unfold ssdsServerProcess
  rw [sockRecv_iff.2 ⟨g, x, hf, hl, hb.symm⟩]
  exact serverMessage_some b _ _

/-- **A call that receives an upload** returns, given steps enough, and lets the session go if a
frame was not stored. -/
theorem MessageAt.upload {sv : Server} {json : SsdsJsonRead} {t t' : Sock} {f : UploadFile} {n : ℤ}
    {b : Bool} {j : ℕ} (hmsg : MessageAt env sv.tick sv.sock json t)
    (hcode : ssdsJsRdGetCode json = .ok (UploadFile.code f).num)
    (hn : ssdsJsRdGetReadBytes json = .ok n) (ho : env.fopen (sv.tick + 1) = true)
    (hrec : Receives env n (sv.tick + 2) 0 t b j t') :
    ∃ F sv', (∀ fuel ≥ F, ssdsServerProcess env fuel sv = .ok (.ok, sv')) ∧ sv'.tick = j ∧
      sv'.sock = t' ∧ sv'.cache = sv.cache ∧ sv'.clientEnd = (!b || sv.clientEnd) ∧
      sv'.sent.length = sv.sent.length + 1 := by
  obtain ⟨F, json', sv', he, hF⟩ := hrec.uploadLoop (uploadOf f) (ssdsJsCrInit .answerOk)
    ((sv.received t).setFile (uploadOf f).file []).tock (by cases f <;> rfl) (by cases f <;> rfl)
  have hframe := (UploadFrame.opened (sv.received t)).trans (uploadLoop_frame (hF F le_rfl))
  have hsent : sv'.sent = sv.sent := hframe.sent
  refine ⟨F, sv'.reply json', fun fuel hfuel => ?_, he.tick, he.sock, hframe.cache, ?_, ?_⟩
  · rw [hmsg.process fuel, serverSwitch_upload hcode]
    exact (uploadBranch_ok_iff hn).2 (Or.inl ⟨ho, rfl, _, _, hF fuel hfuel, rfl⟩)
  · show sv'.clientEnd = _
    rw [he.clientEnd]
    cases f <;> rfl
  · rw [Server.sent_reply, hsent, List.length_append]
    rfl

/-! ## What ends the program before -/

section
variable {conn : Perils.Conn} {sv sv' : Server}

/-- Part after part. -/
theorem Perils.Conn.Spares.add_iff {n v w : ℕ} {out : Bool} :
    conn.Spares n (v + w) out ↔ conn.Spares n v false ∧ conn.Spares (n + v) w out := by
  constructor
  · rintro ⟨hpipe, hout⟩
    refine ⟨⟨?_, by simp⟩, ?_, hout⟩
    · intro k hk hlt
      exact hpipe k hk (by omega)
    · intro k hk hlt
      exact hpipe k (by omega) (by omega)
  · rintro ⟨⟨hpipe, -⟩, hpipe', hout⟩
    refine ⟨?_, hout⟩
    intro k hk hlt
    by_cases hfirst : k < n + v
    · exact hpipe k hk hfirst
    · exact hpipe' k (by omega) (by omega)

theorem Perils.Conn.Spares.none (conn : Perils.Conn) (n : ℕ) : conn.Spares n 0 false :=
  ⟨fun _ _ _ => by omega, by simp⟩

theorem Perils.raises_eq_false_iff {pipe : ℕ → Bool} {w : ℕ}
    (hsent : sv'.sent.length = sv.sent.length + w) : Perils.raises pipe sv sv' = false ↔
      ∀ k, sv.sent.length ≤ k → k < sv.sent.length + w → pipe k = false := by
  unfold Perils.raises
  rw [List.any_eq_false, hsent]
  simp only [List.mem_range, Bool.and_eq_true, decide_eq_true_eq, not_and, Bool.not_eq_true]
  constructor
  · intro h k hk hlt
    exact h k hlt hk
  · intro h k hlt hk
    exact h k hk hlt

/-- **A call that comes back** with `w` messages written is spared, or ends the program. -/
theorem Perils.ssdsServerProcess_iff {fuel w : ℕ} {st : Errors}
    (hsent : sv'.sent.length = sv.sent.length + w)
    (hp : Rds.ssdsServerProcess env fuel sv = .ok (st, sv')) :
    Perils.ssdsServerProcess env conn fuel sv = .ok (st, sv') ↔
      conn.Spares sv.sent.length w (Perils.messageOutside env sv) := by
  unfold Perils.ssdsServerProcess Perils.Conn.Spares
  rw [hp, ← Perils.raises_eq_false_iff hsent]
  simp only [bind, Except.bind, pure, Except.pure]
  cases Perils.raises conn.pipe sv sv' <;> cases hdamage : conn.damage <;>
    cases Perils.messageOutside env sv <;> simp

/-- The call itself came back. -/
theorem Perils.ssdsServerProcess_call {fuel : ℕ} {r : Errors × Server}
    (h : Perils.ssdsServerProcess env conn fuel sv = .ok r) :
    Rds.ssdsServerProcess env fuel sv = .ok r := by
  obtain ⟨⟨st, sv'⟩, hp, h⟩ := bind_eq_ok.1 h
  have heq : (st, sv') = r := by
    simp only [pure, Except.pure] at h
    split at h
    · cases h
    · split at h
      · cases h
      · exact Except.ok.inj h
  rw [hp, heq]

/-- The session itself returned. -/
theorem Perils.sessionLoop_session {fuel : ℕ} {r : Errors × Server}
    (h : Perils.sessionLoop env conn fuel sv = .ok r) : Rds.sessionLoop env fuel sv = .ok r := by
  induction fuel generalizing sv with
  | zero => cases h
  | succ fuel ih =>
    cases hc : sv.clientEnd with
    | true =>
      rw [Perils.sessionLoop_clientEnd hc] at h
      rw [Rds.sessionLoop_clientEnd hc]
      exact h
    | false =>
      obtain ⟨st, sv', hp, hrest⟩ := (Perils.sessionLoop_ok_iff hc).1 h
      refine (Rds.sessionLoop_ok_iff hc).2 ⟨st, sv', Perils.ssdsServerProcess_call hp, ?_⟩
      rcases hrest with ⟨hst, h⟩ | hlast
      · exact Or.inl ⟨hst, ih h⟩
      · exact Or.inr hlast

/-! ## Accesses outside an array, by the code -/

theorem MessageAt.outside {json : SsdsJsonRead} {t : Sock} (h : MessageAt env sv.tick sv.sock json t) :
    Perils.messageOutside env sv =
      Perils.switchOutside sv.cache (env.download (sv.tick + 1)) json := by
  obtain ⟨-, g, x, b, hf, hl, hb, rfl⟩ := h
  unfold Perils.messageOutside
  rw [sockRecv_iff.2 ⟨g, x, hf, hl, hb.symm⟩]

theorem Perils.switchOutside_get {op : Code} (hop : op ∈ getCodes) {json : SsdsJsonRead}
    (h : ssdsJsRdGetCode json = .ok op.num) (download : ℕ → Download) :
    Perils.switchOutside cache download json = Perils.requestOutside cache download op json := by
  unfold Perils.switchOutside
  rw [h]
  simp only [getCodes, List.mem_cons, List.not_mem_nil, or_false] at hop
  rcases hop with rfl | rfl | rfl | rfl <;> rfl

theorem Perils.switchOutside_other {c : ℤ} {json : SsdsJsonRead} (h : ssdsJsRdGetCode json = .ok c)
    (hc : ∀ op ∈ getCodes, c ≠ op.num) (download : ℕ → Download) :
    Perils.switchOutside cache download json = false := by
  unfold Perils.switchOutside
  rw [h]
  have hne : ∀ op ∈ getCodes, Code.ofNum c ≠ some op := by
    intro op hop hcop
    exact hc op hop (Code.num_of_ofNum hcop).symm
  simp only [getCodes, List.forall_mem_cons] at hne
  obtain ⟨h1, h2, h3, h4, -⟩ := hne
  simp only

theorem upload_not_get (f : UploadFile) : ∀ op ∈ getCodes, (UploadFile.code f).num ≠ op.num := by
  cases f <;> decide

theorem unserved_not_get {c : ℤ} (h : Unserved c) : ∀ op ∈ getCodes, c ≠ op.num :=
  fun op hop => h op (List.mem_append_right _ hop)

end

/-! ## Let go and spared -/

/-- **A returning session** was let go by a message, and nothing ended the program before. -/
theorem Perils.sessionLoop_ends (hempty : env.load [] = some none) {conn : Perils.Conn} {fuel : ℕ}
    {sv : Server} {r : Errors × Server} (hc : sv.clientEnd = false)
    (h : Perils.sessionLoop env conn fuel sv = .ok r) :
    ∃ w out, Ends env sv.cache sv.tick sv.sock w out ∧ conn.Spares sv.sent.length w out := by
  induction fuel generalizing sv with
  | zero => cases h
  | succ fuel ih =>
    by_cases hs : sv.sock.reads = []
    · exact absurd (Perils.sessionLoop_session h) (sessionLoop_eof hempty hs hc)
    obtain ⟨st, sv', hpp, h⟩ := (Perils.sessionLoop_ok_iff hc).1 h
    have hp := Perils.ssdsServerProcess_call hpp
    obtain ⟨buf, t, hr, hm⟩ := ssdsServerProcess_ok_iff.1 hp
    obtain ⟨g, x, hf, hl, hbuf⟩ := sockRecv_iff.1 hr
    cases buf with
    -- only a failed first read gives no buffer
    | none =>
      obtain ⟨rfl, rfl⟩ : g = [] ∧ x = .err := by
        unfold frameBuf at hbuf
        split at hbuf
        · exact ⟨rfl, rfl⟩
        · cases hbuf
      exact ⟨0, false, .unread hf, .none conn _⟩
    | some b =>
      have hmsg : MessageAt env sv.tick sv.sock (ssdsJsRdParse env.load (some b) (env.fresh sv.tick)).2
          t := ⟨hs, g, x, b, hf, hl, hbuf.symm, rfl⟩
      have hout := hmsg.outside
      rw [serverMessage_some] at hm
      generalize (ssdsJsRdParse env.load (some b) (env.fresh sv.tick)).2 = json at hmsg hm hout
      have hm' := hm
      unfold serverSwitch at hm'
      obtain ⟨c, hcode, -⟩ := bind_eq_ok.1 hm'
      -- one case for each kind of message, one constructor of `Ends` for each
      rcases code_cases c with ⟨f, rfl⟩ | ⟨op, hop, rfl⟩ | rfl | hu
      · rw [serverSwitch_upload hcode] at hm
        rw [Perils.switchOutside_other hcode (upload_not_get f)] at hout
        have hm' := hm
        unfold uploadBranch at hm'
        obtain ⟨n, hn, -⟩ := bind_eq_ok.1 hm'
        obtain ⟨hsent, hbranch⟩ := uploadBranch_receives hn hm
        have hspares := (Perils.ssdsServerProcess_iff hsent hp).1 hpp
        rw [hout] at hspares
        rcases hbranch with ho | ⟨ho, rfl, b', hrec, hcache, hend⟩
        · exact ⟨1, false, .noFile hmsg hcode hn ho, hspares⟩
        cases b' with
        | false => exact ⟨1, false, .failed hmsg hcode hn ho hrec, hspares⟩
        | true =>
          -- a completed upload goes on with the session
          rcases h with ⟨-, h⟩ | ⟨hst, -⟩
          · obtain ⟨w, out, hends, hrest⟩ := ih (hend.trans hc) h
            rw [hcache] at hends
            rw [hsent] at hrest
            exact ⟨1 + w, out, .uploaded hmsg hcode hn ho hrec hends,
              Perils.Conn.Spares.add_iff.2 ⟨hspares, hrest⟩⟩
          · exact absurd rfl hst
      · rw [serverSwitch_get hop hcode] at hm
        rw [Perils.switchOutside_get hop hcode] at hout
        obtain ⟨-, cache', js', rfl⟩ := getBranch_cases hm
        have hspares := (Perils.ssdsServerProcess_iff (w := 2) (by simp [Server.received]) hp).1 hpp
        rw [hout] at hspares
        exact ⟨2, _, .served hmsg hop hcode (getBranch_ok_iff.1 ⟨_, hm⟩), hspares⟩
      · rw [serverSwitch_dependency hcode] at hm
        rw [Perils.switchOutside_other hcode (by decide)] at hout
        cases hm
        have hspares := (Perils.ssdsServerProcess_iff (w := 1) (by simp [Server.received]) hp).1 hpp
        rw [hout] at hspares
        exact ⟨1, false, .dependency hmsg hcode, hspares⟩
      · rw [serverSwitch_unserved hcode hu] at hm
        cases hm
        rcases h with ⟨-, h⟩ | ⟨hst, -⟩
        · obtain ⟨w, out, hends, hrest⟩ := @ih (sv.received t) hc h
          exact ⟨0 + w, out, .unserved hmsg hcode hu hends,
            Perils.Conn.Spares.add_iff.2 ⟨.none conn _, hrest⟩⟩
        · exact absurd rfl hst

section
variable {conn : Perils.Conn} {sv sv' : Server}

/-- A call that returned ends a loop that it lets go. -/
theorem Perils.sessionLoop_of_last {fuel : ℕ} (hc : sv.clientEnd = false) {st : Errors}
    (hp : Perils.ssdsServerProcess env conn (fuel + 1) sv = .ok (st, sv'))
    (hend : st ≠ .ok ∨ sv'.clientEnd = true) :
    ∃ r, Perils.sessionLoop env conn (fuel + 2) sv = .ok r := by
  by_cases hst : st = .ok
  · have hend' : sv'.clientEnd = true := by
      rcases hend with h | h
      · exact absurd hst h
      · exact h
    exact ⟨_, (Perils.sessionLoop_ok_iff hc).2
      ⟨st, sv', hp, Or.inl ⟨hst, Perils.sessionLoop_clientEnd hend'⟩⟩⟩
  · exact ⟨_, (Perils.sessionLoop_ok_iff hc).2 ⟨st, sv', hp, Or.inr ⟨hst, rfl⟩⟩⟩

/-- A last message: its call returns with any number of steps from `m` on. -/
theorem Perils.sessionLoop_last (m : ℕ) (hc : sv.clientEnd = false)
    (hp : ∀ fuel ≥ m, ∃ st sv', Perils.ssdsServerProcess env conn fuel sv = .ok (st, sv') ∧
      (st ≠ .ok ∨ sv'.clientEnd = true)) :
    ∃ F, ∀ fuel ≥ F, ∃ r, Perils.sessionLoop env conn fuel sv = .ok r := by
  refine ⟨m + 2, fun fuel hfuel => ?_⟩
  obtain ⟨fuel, rfl⟩ : ∃ n, fuel = n + 2 := ⟨fuel - 2, by omega⟩
  obtain ⟨st, sv', hp, hend⟩ := hp (fuel + 1) (by omega)
  exact Perils.sessionLoop_of_last hc hp hend

/-- A message with more to come, whose call returns with any number of steps from `m` on. -/
theorem Perils.sessionLoop_next (m : ℕ) (hc : sv.clientEnd = false)
    (hp : ∀ fuel ≥ m, Perils.ssdsServerProcess env conn fuel sv = .ok (.ok, sv'))
    (hrest : ∃ F, ∀ fuel ≥ F, ∃ r, Perils.sessionLoop env conn fuel sv' = .ok r) :
    ∃ F, ∀ fuel ≥ F, ∃ r, Perils.sessionLoop env conn fuel sv = .ok r := by
  obtain ⟨F, hF⟩ := hrest
  -- steps enough for the call and for the rest
  refine ⟨max m F + 1, fun fuel hfuel => ?_⟩
  obtain ⟨fuel, rfl⟩ : ∃ n, fuel = n + 1 := ⟨fuel - 1, by omega⟩
  obtain ⟨r, hr⟩ := hF fuel (by omega)
  exact ⟨r, (Perils.sessionLoop_ok_iff hc).2 ⟨.ok, sv', hp fuel (by omega), Or.inl ⟨rfl, hr⟩⟩⟩

end

/-- **A stream that ends its session** does so whatever the session did before. -/
theorem Ends.sessionLoop {conn : Perils.Conn} {k w : ℕ} {s : Sock} {out : Bool}
    (h : Ends env cache k s w out) : ∀ sv : Server, sv.tick = k → sv.sock = s → sv.cache = cache →
      sv.clientEnd = false → conn.Spares sv.sent.length w out →
      ∃ F, ∀ fuel ≥ F, ∃ r, Perils.sessionLoop env conn fuel sv = .ok r := by
  induction h with
  | @unread k s t hf =>
    intro sv hk hs hca hc hspares
    subst hk hs
    have hrecv := sockRecv_iff.2 ⟨[], .err, hf, by decide, rfl⟩
    have hout : Perils.messageOutside env sv = false := by
      unfold Perils.messageOutside
      rw [hrecv]
      rfl
    rw [← hout] at hspares
    refine Perils.sessionLoop_last 0 hc fun fuel _ => ⟨.networkingError, sv.received t, ?_, ?_⟩
    · refine (Perils.ssdsServerProcess_iff rfl ?_).2 hspares
      exact ssdsServerProcess_ok_iff.2 ⟨none, t, hrecv, rfl⟩
    · exact Or.inl (by decide)
  | @served k s t json op hmsg hop hcode hserves =>
    intro sv hk hs hca hc hspares
    subst hk hs hca
    rw [← Perils.switchOutside_get hop hcode, ← hmsg.outside] at hspares
    refine Perils.sessionLoop_last 0 hc fun fuel _ => ?_
    obtain ⟨⟨st, sv'⟩, hb⟩ := (@getBranch_ok_iff env op json (sv.received t)).2 hserves
    have hproc := hmsg.process fuel
    rw [serverSwitch_get hop hcode] at hproc
    have hp := hproc.trans hb
    have hend := (getBranch_sock hb).2.2
    obtain ⟨-, cache', js', rfl⟩ := getBranch_cases hb
    exact ⟨st, _, (Perils.ssdsServerProcess_iff (by simp [Server.received]) hp).2 hspares, Or.inr hend⟩
  | dependency hmsg hcode =>
    intro sv hk hs hca hc hspares
    subst hk hs
    rw [← Perils.switchOutside_other hcode (by decide), ← hmsg.outside] at hspares
    refine Perils.sessionLoop_last 0 hc fun fuel _ => ?_
    have hproc := hmsg.process fuel
    rw [serverSwitch_dependency hcode] at hproc
    exact ⟨_, _, (Perils.ssdsServerProcess_iff (by simp [Server.received]) hproc).2 hspares, Or.inr rfl⟩
  | @noFile k s t json f n hmsg hcode hn ho =>
    intro sv hk hs hca hc hspares
    subst hk hs
    rw [← Perils.switchOutside_other hcode (upload_not_get f), ← hmsg.outside] at hspares
    refine Perils.sessionLoop_last 0 hc fun fuel _ => ?_
    have hproc := hmsg.process fuel
    rw [serverSwitch_upload hcode] at hproc
    have hp := hproc.trans ((uploadBranch_ok_iff hn).2 (Or.inr ⟨ho, rfl, rfl⟩))
    exact ⟨.fileError, _, (Perils.ssdsServerProcess_iff (by simp [Server.received]) hp).2 hspares,
      Or.inl (by decide)⟩
  | @failed k s t json f n j t' hmsg hcode hn ho hrec =>
    intro sv hk hs hca hc hspares
    subst hk hs
    rw [← Perils.switchOutside_other hcode (upload_not_get f), ← hmsg.outside] at hspares
    obtain ⟨F, sv', hF, -, -, -, hend, hsent⟩ := hmsg.upload hcode hn ho hrec
    refine Perils.sessionLoop_last F hc fun fuel hfuel => ⟨.ok, sv', ?_, Or.inr hend⟩
    exact (Perils.ssdsServerProcess_iff hsent (hF fuel hfuel)).2 hspares
  | @uploaded k s t json f n j t' w out hmsg hcode hn ho hrec _ ih =>
    intro sv hk hs hca hc hspares
    subst hk hs
    obtain ⟨hfirst, hrest⟩ := Perils.Conn.Spares.add_iff.1 hspares
    rw [← Perils.switchOutside_other hcode (upload_not_get f), ← hmsg.outside] at hfirst
    obtain ⟨F, sv', hF, htick, hsock, hcache, hend, hsent⟩ := hmsg.upload hcode hn ho hrec
    rw [← hsent] at hrest
    refine Perils.sessionLoop_next F hc (fun fuel hfuel => ?_)
      (ih sv' htick hsock (hcache.trans hca) (hend.trans hc) hrest)
    exact (Perils.ssdsServerProcess_iff hsent (hF fuel hfuel)).2 hfirst
  | @unserved k s t json c w out hmsg hcode hu _ ih =>
    intro sv hk hs hca hc hspares
    subst hk hs
    obtain ⟨hfirst, hrest⟩ := Perils.Conn.Spares.add_iff.1 hspares
    rw [← Perils.switchOutside_other hcode (unserved_not_get hu), ← hmsg.outside] at hfirst
    refine Perils.sessionLoop_next 0 hc (fun fuel _ => ?_) (ih (sv.received t) rfl rfl hca hc hrest)
    refine (Perils.ssdsServerProcess_iff (by simp [Server.received]) ?_).2 hfirst
    rw [hmsg.process fuel, serverSwitch_unserved hcode hu]

/-- **A turn that comes back**: the log can be written, and if there is a client, a message lets its
session go and nothing ends the program before. -/
def Perils.Conn.Returns (env : Env) (sv : Server) (conn : Perils.Conn) : Prop :=
  conn.logFile = true ∧ ∀ sock, conn.sock = some sock →
    ∃ w out, Ends env sv.cache sv.tick sock w out ∧ conn.Spares 0 w out

theorem Perils.accepted_iff (hempty : env.load [] = some none) {conn : Perils.Conn} {sv : Server} :
    (∃ fuel r, Perils.ssdsServerAcceptConnection env fuel conn sv = .ok r) ↔ conn.Returns env sv := by
  unfold Perils.Conn.Returns Perils.ssdsServerAcceptConnection
  cases hlog : conn.logFile with
  | false => simp
  | true =>
    cases hsock : conn.sock with
    | none => simp [pure, Except.pure]
    | some sock =>
      simp only [if_true, true_and, Option.some.injEq, forall_eq']
      constructor
      · rintro ⟨fuel, r, h⟩
        exact Perils.sessionLoop_ends hempty rfl h
      · rintro ⟨w, out, hends, hspares⟩
        obtain ⟨F, hF⟩ := hends.sessionLoop { sv with sock, clientEnd := false, sent := [] } rfl rfl
          rfl rfl hspares
        exact ⟨F, hF F le_rfl⟩

end Rds
