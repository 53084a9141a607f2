import Rds.Proof.Upload
import Rds.Spec.Client

/-!
# One session of the server

What a call of `ssds_server_process` does, by the message it receives, and what every
call takes from the connection.

* `UploadFrame`: what an upload leaves alone.
* `serverSwitch_upload`: a message that announces an upload is served by that upload's
  branch; `uploadBranch_ok_iff` says how the branch ends.
* `Session.rest`: a session only ever reads on.
-/

namespace Rds

variable {env : Env} {u : Upload} {fuel : ℕ}

/-! ## What an upload leaves alone -/

/-- What an upload neither sends nor stores, and that it reads on. -/
structure UploadFrame (u : Upload) (sv sv' : Server) : Prop where
  sent : sv'.sent = sv.sent
  cache : sv'.cache = sv.cache
  other : ∀ f, f ≠ u.file → sv'.file f = sv.file f
  rest : sv.sock.Rest sv'.sock

theorem UploadFrame.trans {sv₁ sv₂ sv₃ : Server} (h : UploadFrame u sv₁ sv₂)
    (h' : UploadFrame u sv₂ sv₃) : UploadFrame u sv₁ sv₃ := by
  refine ⟨h'.sent.trans h.sent, h'.cache.trans h.cache, ?_, h.rest.trans h'.rest⟩
  intro f hf
  rw [h'.other f hf, h.other f hf]

@[simp] theorem Server.file_setFile_ne (sv : Server) {f g : UploadFile} (c : List Byte)
    (h : f ≠ g) : (sv.setFile g c).file f = sv.file f := by
  cases f <;> cases g <;> first | rfl | exact absurd rfl h

@[simp] theorem Server.cache_setFile (sv : Server) (f : UploadFile) (c : List Byte) :
    (sv.setFile f c).cache = sv.cache := by cases f <;> rfl

/-- A file set and a question asked, reading on to `t`. -/
theorem UploadFrame.set {sv : Server} {t : Sock} (c : List Byte) (b : Bool)
    (ht : sv.sock.Rest t) :
    UploadFrame u sv
      { ((({ sv with sock := t } : Server).setFile u.file c).tock) with clientEnd := b } := by
  refine ⟨?_, ?_, ?_, ?_⟩
  · exact Server.sent_setFile { sv with sock := t } u.file c
  · exact Server.cache_setFile { sv with sock := t } u.file c
  · intro f hf; exact Server.file_setFile_ne { sv with sock := t } c hf
  · show sv.sock.Rest (({ sv with sock := t } : Server).setFile u.file c).sock
    rw [Server.sock_setFile]
    exact ht

/-- One turn of the loop, however it goes. -/
theorem UploadFrame.fwrite {sv : Server} {g : List ReadRes} {x : ReadRes} {t : Sock}
    (hf : SockFrame sv.sock g x t) (n : ℤ) (buf : Option (List Byte)) :
    UploadFrame u sv
      { (fwriteFile env { sv with sock := t } u.file n buf).2 with clientEnd := true } := by
  have ht : sv.sock.Rest t := hf.rest
  unfold fwriteFile
  split
  · exact ⟨rfl, rfl, fun f _ => by cases f <;> rfl, ht⟩
  · exact UploadFrame.set _ true ht

theorem UploadFrame.stored {sv : Server} {g : List ReadRes} {x : ReadRes} {t : Sock}
    (hf : SockFrame sv.sock g x t) (data : List Byte) : UploadFrame u sv (sv.stored u t data) := by
  have h : UploadFrame u sv { ((({ sv with sock := t } : Server).setFile u.file
      ((sv.file u.file).getD [] ++ data)).tock) with clientEnd := sv.clientEnd } :=
    .set _ sv.clientEnd hf.rest
  have he : sv.stored u t data = { ((({ sv with sock := t } : Server).setFile u.file
      ((sv.file u.file).getD [] ++ data)).tock) with clientEnd := sv.clientEnd } := by
    unfold Server.stored
    obtain ⟨f, _, _, _⟩ := u
    cases f <;> rfl
  rw [he]; exact h

/-- **The loop of an upload** sends nothing, stores in its own file only and reads on. -/
theorem uploadLoop_frame {n w : ℤ} {json json' : SsdsJsonCreate} {sv sv' : Server}
    (h : uploadLoop env u n fuel w json sv = .ok (json', sv')) : UploadFrame u sv sv' := by
  induction fuel generalizing w sv with
  | zero => cases h
  | succ fuel ih =>
    obtain ⟨g, x, t, hf, -, h⟩ := uploadLoop_ok_iff.1 h
    rcases h with ⟨-, -, -, rfl⟩ | ⟨-, -, h⟩ | ⟨-, -, rfl⟩
    · exact .stored hf _
    · exact (UploadFrame.stored hf _).trans (ih h)
    · exact .fwrite hf _ _

/-! ## The branch of an upload -/

/-- The branch that serves the upload of a file. -/
def uploadOf : UploadFile → Upload
  | .solv => sendSolvUpload
  | .yum => sendYumConfUpload

@[simp] theorem uploadOf_file (f : UploadFile) : (uploadOf f).file = f := by cases f <;> rfl

/-- The message when the file cannot be created. -/
def createErrorMessage (u : Upload) (json : SsdsJsonCreate) : SsdsJsonCreate :=
  ssdsJsCrSetMessage (ssdsJsCrInsertCode json .answerError) u.createError

theorem serverSwitch_upload {f : UploadFile} {json : SsdsJsonRead}
    (h : ssdsJsRdGetCode json = .ok f.code.num) (sv : Server) :
    serverSwitch env fuel json sv =
      uploadBranch env (uploadOf f) fuel (ssdsJsCrInit .answerOk) json sv := by
  unfold serverSwitch
  rw [h]
  cases f <;> rfl

/-- **How an upload ends**: with the answer of its loop, or with a file it cannot create. -/
theorem uploadBranch_ok_iff {json : SsdsJsonRead} {n : ℤ} (hn : ssdsJsRdGetReadBytes json = .ok n)
    {js : SsdsJsonCreate} {sv sv' : Server} {status : Errors} :
    uploadBranch env u fuel js json sv = .ok (status, sv') ↔
      (env.fopen sv.tick = true ∧ status = .ok ∧ ∃ js' sv₁,
        uploadLoop env u n fuel 0 js (sv.setFile u.file []).tock = .ok (js', sv₁) ∧
          sv' = sv₁.reply js') ∨
      (env.fopen sv.tick = false ∧ status = .fileError ∧
        sv' = sv.tock.reply (createErrorMessage u js)) := by
  unfold uploadBranch
  rw [hn]
  by_cases ho : env.fopen sv.tick = true
  · simp only [bind, Except.bind, ho, if_true, true_and, Bool.true_eq_false, false_and, or_false]
    cases hl : uploadLoop env u n fuel 0 js (sv.setFile u.file []).tock with
    | error e => simp
    | ok p =>
      obtain ⟨js', sv₁⟩ := p
      simp [pure, Except.pure, eq_comm]
  · rw [Bool.not_eq_true] at ho
    simp [bind, Except.bind, ho, pure, Except.pure, createErrorMessage, eq_comm]

/-- Opening the file starts the frame of the loop. -/
theorem UploadFrame.opened (sv : Server) : UploadFrame u sv (sv.setFile u.file []).tock := by
  have h : UploadFrame u sv { ((({ sv with sock := sv.sock } : Server).setFile
      u.file []).tock) with clientEnd := sv.clientEnd } := .set [] sv.clientEnd (.refl _)
  have he : (sv.setFile u.file []).tock = { ((({ sv with sock := sv.sock } : Server).setFile
      u.file []).tock) with clientEnd := sv.clientEnd } := by
    obtain ⟨f, _, _, _⟩ := u
    cases f <;> rfl
  rw [he]; exact h

/-- What an upload that ended has done: its loop ran and was answered, or there was no file. -/
theorem uploadBranch_cases {js : SsdsJsonCreate} {json : SsdsJsonRead} {sv sv' : Server}
    {status : Errors} (h : uploadBranch env u fuel js json sv = .ok (status, sv')) :
    (∃ js' sv₁, UploadFrame u sv sv₁ ∧ sv' = sv₁.reply js') ∨
      sv' = sv.tock.reply (createErrorMessage u js) := by
  have h' := h
  unfold uploadBranch at h'
  obtain ⟨n, hn, -⟩ := bind_eq_ok.1 h'
  rcases (uploadBranch_ok_iff hn).1 h with ⟨-, -, js', sv₁, hl, heq⟩ | ⟨-, -, heq⟩
  · exact Or.inl ⟨js', sv₁, (UploadFrame.opened sv).trans (uploadLoop_frame hl), heq⟩
  · exact Or.inr heq

/-- An upload reads on. -/
theorem uploadBranch_rest {js : SsdsJsonCreate} {json : SsdsJsonRead} {sv sv' : Server}
    {status : Errors} (h : uploadBranch env u fuel js json sv = .ok (status, sv')) :
    sv.sock.Rest sv'.sock := by
  rcases uploadBranch_cases h with ⟨js', sv₁, hframe, rfl⟩ | rfl
  · exact hframe.rest
  · exact .refl _

/-- An upload sends one reply and leaves the other file alone. -/
theorem uploadBranch_frame {js : SsdsJsonCreate} {json : SsdsJsonRead} {sv sv' : Server}
    {status : Errors} (h : uploadBranch env u fuel js json sv = .ok (status, sv')) :
    (∃ r, sv'.sent = sv.sent ++ [r]) ∧ ∀ f, f ≠ u.file → sv'.file f = sv.file f := by
  rcases uploadBranch_cases h with ⟨js', sv₁, hframe, rfl⟩ | rfl
  · refine ⟨⟨_, by rw [Server.reply, hframe.sent]⟩, ?_⟩
    intro f hf
    rw [Server.file_reply, hframe.other f hf]
  · refine ⟨⟨_, rfl⟩, ?_⟩
    intro f _
    rw [Server.file_reply]
    cases f <;> rfl

/-! ## Whole calls and sessions -/

/-- What a request does: two messages are sent, and the cache may have grown. -/
theorem getBranch_cases {op : Code} {js : SsdsJsonCreate} {json : SsdsJsonRead} {sv sv' : Server}
    {status : Errors} (h : getBranch env op js json sv = .ok (status, sv')) :
    status = .ok ∧ ∃ cache js', sv' =
      { (Server.tock { sv.reply js with cache }).reply js' with clientEnd := true } := by
  unfold getBranch at h
  obtain ⟨⟨pkgs, k⟩, -, h⟩ := bind_eq_ok.1 h
  obtain ⟨list, -, h⟩ := bind_eq_ok.1 h
  obtain ⟨r, -, h⟩ := bind_eq_ok.1 h
  cases h
  exact ⟨rfl, _, _, rfl⟩

/-- A request leaves the connection alone. -/
theorem getBranch_sock {op : Code} {js : SsdsJsonCreate} {json : SsdsJsonRead} {sv sv' : Server}
    {status : Errors} (h : getBranch env op js json sv = .ok (status, sv')) :
    sv'.sock = sv.sock ∧ status = .ok ∧ sv'.clientEnd = true := by
  obtain ⟨hstatus, cache, js', rfl⟩ := getBranch_cases h
  exact ⟨rfl, hstatus, rfl⟩

/-- It leaves the files alone, too. -/
theorem getBranch_file {op : Code} {js : SsdsJsonCreate} {json : SsdsJsonRead} {sv sv' : Server}
    {status : Errors} (h : getBranch env op js json sv = .ok (status, sv')) (f : UploadFile) :
    sv'.file f = sv.file f := by
  obtain ⟨-, cache, js', rfl⟩ := getBranch_cases h
  cases f <;> rfl

/-- Whatever the message, the switch reads on. -/
theorem serverSwitch_rest {json : SsdsJsonRead} {sv sv' : Server} {status : Errors}
    (h : serverSwitch env fuel json sv = .ok (status, sv')) : sv.sock.Rest sv'.sock := by
  unfold serverSwitch at h
  obtain ⟨code, -, h⟩ := bind_eq_ok.1 h
  have hget : ∀ {op}, getBranch env op (ssdsJsCrInit .answerOk) json sv = .ok (status, sv') →
      sv.sock.Rest sv'.sock := by
    intro op hg
    rw [(getBranch_sock hg).1]
    exact .refl _
  split at h
  · exact uploadBranch_rest h
  · exact uploadBranch_rest h
  · exact hget h
  · exact hget h
  · exact hget h
  · exact hget h
  · cases h; exact .refl _
  · cases h; exact .refl _

/-- **Nobody is rejected**: the switch runs on whatever the reader holds. -/
theorem serverMessage_some (b : List Byte) (fresh : SsdsJsonRead) (sv : Server) :
    serverMessage env fuel (some b) fresh sv =
      serverSwitch env fuel (ssdsJsRdParse env.load (some b) fresh).2 sv := by
  unfold serverMessage
  split
  · rename_i h
    cases h
  · rename_i buf h
    cases h
    split
    · rename_i json hp
      -- the branch that rejects the client is never taken
      exact absurd (congrArg Prod.fst hp) (ssdsJsRdParse_ne_zero _ _ _)
    · rename_i hp
      rw [hp]

/-- The server once a message has been received. -/
def Server.received (sv : Server) (t : Sock) : Server := ({ sv with sock := t } : Server).tock

/-- A call that returned received a buffer and dealt with it. -/
theorem ssdsServerProcess_ok_iff {sv : Server} {r : Errors × Server} :
    ssdsServerProcess env fuel sv = .ok r ↔ ∃ buf t, sockRecv sv.sock = .ok (buf, t) ∧
      serverMessage env fuel buf (env.fresh sv.tick) (sv.received t) = .ok r := by
  unfold ssdsServerProcess
  rw [bind_eq_ok]
  constructor
  · rintro ⟨⟨buf, t⟩, hr, h⟩; exact ⟨buf, t, hr, h⟩
  · rintro ⟨buf, t, hr, h⟩; exact ⟨(buf, t), hr, h⟩

/-- **Every call reads on**, from the message it receives. -/
theorem ssdsServerProcess_rest {sv sv' : Server} {status : Errors}
    (h : ssdsServerProcess env fuel sv = .ok (status, sv')) :
    ∃ g x t, SockFrame sv.sock g x t ∧ t.Rest sv'.sock := by
  obtain ⟨buf, t, hr, h⟩ := ssdsServerProcess_ok_iff.1 h
  obtain ⟨g, x, hf, -, -⟩ := sockRecv_iff.1 hr
  refine ⟨g, x, t, hf, ?_⟩
  cases buf with
  | none => cases h; exact .refl _
  | some b =>
    rw [serverMessage_some] at h
    exact serverSwitch_rest h

/-- The states between the calls of a session that starts at the first one. -/
inductive Session (env : Env) (sv : Server) : Server → Prop
  | start : Session env sv sv
  | call {fuel : ℕ} {u v : Server} : Session env sv u → u.clientEnd = false →
      ssdsServerProcess env fuel u = .ok (.ok, v) → Session env sv v

theorem Session.rest {sv sv' : Server} (h : Session env sv sv') : sv.sock.Rest sv'.sock := by
  induction h with
  | start => exact .refl _
  | call _ _ hp ih =>
    obtain ⟨g, x, t, hf, ht⟩ := ssdsServerProcess_rest hp
    exact ih.trans (hf.rest.trans ht)

/-! ## Plain surroundings -/

/-- A parser for one text. -/
def loadOnly (text : List Byte) (root : Json) (t : List Byte) : Option (Option Json) :=
  if t = text then some (some root) else none

/-- A piece of it is not that one text. -/
theorem loadOnly_piece {text s p t : List Byte} (root : Json) (h : text = s ++ p ++ t)
    (hst : s ≠ [] ∨ t ≠ []) : loadOnly text root (cstr p) = none := by
  refine if_neg fun heq => ?_
  have hlen : (cstr p).length ≤ p.length := (List.takeWhile_sublist _).length_le
  have hpos : 0 < s.length + t.length := by
    rcases hst with hs | ht
    · have := List.length_pos_iff.2 hs; omega
    · have := List.length_pos_iff.2 ht; omega
  rw [heq, h] at hlen
  simp only [List.length_append] at hlen
  omega

/-- A parser that knows only the empty text, as json-glib does: no document. -/
def loadEmpty (t : List Byte) : Option (Option Json) := if t = [] then some none else none

/-- Surroundings without incident. -/
def plainEnv (load : List Byte → Option (Option Json)) : Env where
  load := load
  fresh _ := ⟨.null, .null, .null⟩
  fopen _ := true
  fwrite _ := 1000000
  slots _ _ := .null
  download _ _ := none
  sack _ _ := []
  hawkey _ := { fnmatch := fun _ _ => false, goalRun := fun _ => 0,
                solution := fun _ => ⟨[], [], [], [], []⟩ }
  reg _ := 0

/-- librepo and rpmlib without incident. -/
def plainLibrepo : Librepo where
  err _ _ := none
  localPath _ _ := none
  succeeds _ := true

def plainRpm : Rpm where
  file _ := ⟨true, 0, 0⟩
  found _ := [⟨1, 0⟩]
  run := 0

/-- A server at the start of a session. -/
def plainServer (sock : Sock) : Server where
  sock := sock
  solv := none
  yum := none
  cache _ := none
  sent := []
  clientEnd := false
  tick := 0

end Rds
