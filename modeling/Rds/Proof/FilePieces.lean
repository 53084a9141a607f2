import Rds.Proof.ServerRun

/-!
# Where the server's files come from

The files are shared by all clients, one upload after the other.

* `ReadOff`: the bytes taken from a connection up to here.
* `sessionLoop_pieces`: a file a session has touched holds bytes of that session only.
* `served_files`: **no file mixes two clients**, whatever the run.
-/

namespace Rds

open Getopt

variable {env : Env} {u : Upload} {fuel : ℕ} {sv sv' : Server} {s₀ s t : Sock} {c d : List Byte}

/-! ## What has been read -/

/-- `c` was taken off the connection that was `s₀` and is now `s`: in order, and in one piece up to
here if no read failed. -/
structure ReadOff (s₀ s : Sock) (c : List Byte) : Prop where
  sub : (c ++ bytesOf s.reads).Sublist (bytesOf s₀.reads)
  whole : (∀ r ∈ s₀.reads, r ≠ .err) → c ++ bytesOf s.reads <:+ bytesOf s₀.reads

/-- `c` was taken off a connection: in order, and in one piece if no read failed. -/
structure PieceOf (s₀ : Sock) (c : List Byte) : Prop where
  sub : c.Sublist (bytesOf s₀.reads)
  whole : (∀ r ∈ s₀.reads, r ≠ .err) → c <:+: bytesOf s₀.reads

theorem ReadOff.nil (h : s₀.Rest s) : ReadOff s₀ s [] := by
  obtain ⟨p, hp⟩ := h.bytes
  have hsuffix : bytesOf s.reads <:+ bytesOf s₀.reads := ⟨p, hp.symm⟩
  exact ⟨hsuffix.sublist, fun _ => hsuffix⟩

/-- The front of what comes next is in the same piece. -/
theorem ReadOff.front {next rest : List Byte} (h : ReadOff s₀ s c)
    (hs : bytesOf s.reads = next ++ rest) (hd : d <+: next) : PieceOf s₀ (c ++ d) := by
  obtain ⟨e, rfl⟩ := hd
  rw [List.append_assoc] at hs
  have hstart : c ++ d <+: c ++ bytesOf s.reads := by
    rw [hs, ← List.append_assoc]
    exact List.prefix_append _ _
  exact ⟨hstart.sublist.trans h.sub, fun hr => hstart.isInfix.trans (h.whole hr).isInfix⟩

theorem ReadOff.piece (h : ReadOff s₀ s c) : PieceOf s₀ c := by
  have hfront := @ReadOff.front s₀ s c [] [] _ h rfl List.prefix_rfl
  rwa [List.append_nil] at hfront

theorem frameData_front (g : List ReadRes) (x : ReadRes) :
    frameData g x <+: bytesOf g ++ x.bytes := List.take_prefix _ _

/-- The count of a frame falls short of its bytes only after a read that failed. -/
theorem frameData_eq {g : List ReadRes} {x : ReadRes} (hg : ∀ r ∈ g, ¬ r.Short) (hx : x ≠ .err) :
    frameData g x = bytesOf g ++ x.bytes := by
  refine List.take_of_length_le ?_
  have hlen := bytesOf_full_length hg
  rw [List.length_append]
  cases x with
  | err => exact absurd rfl hx
  | got bs le =>
    simp only [frameRet, ReadRes.ret, ReadRes.bytes]
    omega

/-- A read of a frame that failed is one of the reads to come. -/
theorem SockFrame.last_ne_err {g : List ReadRes} {x : ReadRes} (hf : SockFrame s g x t)
    (hr : ∀ r ∈ s.reads, r ≠ .err) : x ≠ .err := by
  rcases hf.reads_eq with heq | ⟨-, -, rfl, -⟩
  · refine hr x ?_
    rw [heq]
    simp
  · unfold ReadRes.eof
    simp

/-- **A frame stored** goes on with what has been read. -/
theorem ReadOff.stored {g : List ReadRes} {x : ReadRes} (h : ReadOff s₀ s c) (hs : s₀.Rest s)
    (hf : SockFrame s g x t) : ReadOff s₀ t (c ++ frameData g x) := by
  have hcontent := hf.content
  constructor
  · have hsub : (c ++ frameData g x ++ bytesOf t.reads).Sublist (c ++ bytesOf s.reads) := by
      rw [hcontent, List.append_assoc]
      exact List.Sublist.append_left ((frameData_front g x).sublist.append_right _) c
    exact hsub.trans h.sub
  · intro hr
    have hlast : x ≠ .err := hf.last_ne_err fun r hmem => hr r (hs.reads.mem hmem)
    rw [frameData_eq hf.long hlast, List.append_assoc, ← hcontent]
    exact h.whole hr

/-! ## What an upload stores -/

/-- A turn that stores less than its frame stores the front of it. -/
theorem fwriteFile_piece {g : List ReadRes} {x : ReadRes} (hc : sv.file u.file = some c)
    (h : ReadOff s₀ sv.sock c) (hf : SockFrame sv.sock g x t) :
    ∃ c', (fwriteFile env { sv with sock := t } u.file (frameRet g x) (frameBuf g x)).2.file u.file =
      some c' ∧ PieceOf s₀ c' := by
  have hfile : ({ sv with sock := t } : Server).file u.file = some c := by
    rw [← hc]
    cases u.file <;> rfl
  unfold fwriteFile
  by_cases h0 : frameRet g x < 0
  · rw [if_pos h0]
    refine ⟨c, ?_, h.piece⟩
    rw [← hfile]
    cases u.file <;> rfl
  · rw [if_neg h0]
    dsimp only
    set k := min (frameRet g x).toNat (env.fwrite ({ sv with sock := t } : Server).tick)
    have htake : ((frameBuf g x).getD []).take k = (frameData g x).take k := by
      rw [← take_frameBuf hf.long (not_lt.1 h0), List.take_take]
      congr 1
      omega
    refine ⟨c ++ (frameData g x).take k, ?_, ?_⟩
    · rw [htake, hfile, Option.getD_some]
      cases u.file <;> rfl
    · exact h.front hf.content ((List.take_prefix _ _).trans (frameData_front g x))

/-- **The loop of an upload** leaves a piece of its connection in the file. -/
theorem uploadLoop_piece {n w : ℤ} {json json' : SsdsJsonCreate}
    (h : uploadLoop env u n fuel w json sv = .ok (json', sv')) (hc : sv.file u.file = some c)
    (hs : s₀.Rest sv.sock) (hr : ReadOff s₀ sv.sock c) :
    ∃ c', sv'.file u.file = some c' ∧ PieceOf s₀ c' := by
  induction fuel generalizing w sv c with
  | zero => cases h
  | succ fuel ih =>
    obtain ⟨g, x, t, hf, -, h⟩ := uploadLoop_ok_iff.1 h
    have hstored := hr.stored hs hf
    have hfile := Server.stored_file sv u t (frameData g x)
    rw [hc, Option.getD_some] at hfile
    rcases h with ⟨-, -, -, rfl⟩ | ⟨-, -, h⟩ | ⟨-, -, rfl⟩
    · exact ⟨_, hfile, hstored.piece⟩
    · have hsock := Server.stored_sock sv u t (frameData g x)
      refine ih h hfile ?_ ?_
      · rw [hsock]
        exact hs.trans hf.rest
      · rw [hsock]
        exact hstored
    · obtain ⟨c', hc', hpiece⟩ : ∃ c', (fwriteFile env { sv with sock := t } u.file (frameRet g x)
          (frameBuf g x)).2.file u.file = some c' ∧ PieceOf s₀ c' := fwriteFile_piece hc hr hf
      refine ⟨c', ?_, hpiece⟩
      rw [← hc']
      cases u.file <;> rfl

/-! ## Whole runs -/

/-- Each file is the one it was, or a piece of the connection. -/
def Untouched (s₀ : Sock) (sv sv' : Server) : Prop :=
  ∀ f, sv'.file f = sv.file f ∨ ∃ c, sv'.file f = some c ∧ PieceOf s₀ c

theorem Untouched.trans {sv₁ sv₂ sv₃ : Server} (h : Untouched s₀ sv₁ sv₂)
    (h' : Untouched s₀ sv₂ sv₃) : Untouched s₀ sv₁ sv₃ := by
  intro f
  rcases h' f with hsame | hpiece
  · rw [hsame]
    exact h f
  · exact Or.inr hpiece

theorem uploadBranch_pieces {js : SsdsJsonCreate} {json : SsdsJsonRead} {status : Errors}
    (hs : s₀.Rest sv.sock) (h : uploadBranch env u fuel js json sv = .ok (status, sv')) :
    Untouched s₀ sv sv' := by
  intro f
  have h' := h
  unfold uploadBranch at h'
  obtain ⟨n, hn, -⟩ := bind_eq_ok.1 h'
  rcases (uploadBranch_ok_iff hn).1 h with ⟨-, -, js', sv₁, hloop, rfl⟩ | ⟨-, -, rfl⟩
  · rw [Server.file_reply]
    by_cases hfile : f = u.file
    · subst hfile
      have hsock : ((sv.setFile u.file []).tock).sock = sv.sock := Server.sock_setFile sv u.file []
      have hopen : ((sv.setFile u.file []).tock).file u.file = some [] := by
        rw [← Server.file_setFile sv u.file []]
        cases u.file <;> rfl
      refine Or.inr (uploadLoop_piece hloop hopen ?_ ?_)
      · rw [hsock]
        exact hs
      · rw [hsock]
        exact .nil hs
    · exact Or.inl (((UploadFrame.opened sv).trans (uploadLoop_frame hloop)).other f hfile)
  · rw [Server.file_reply]
    cases f <;> exact Or.inl rfl

theorem serverSwitch_pieces {json : SsdsJsonRead} {status : Errors} (hs : s₀.Rest sv.sock)
    (h : serverSwitch env fuel json sv = .ok (status, sv')) : Untouched s₀ sv sv' := by
  have h' := h
  unfold serverSwitch at h'
  obtain ⟨code, hcode, -⟩ := bind_eq_ok.1 h'
  rcases code_cases code with ⟨f, rfl⟩ | ⟨op, hop, rfl⟩ | rfl | hu
  · rw [serverSwitch_upload hcode] at h
    exact uploadBranch_pieces hs h
  · rw [serverSwitch_get hop hcode] at h
    exact fun f => Or.inl (getBranch_file h f)
  · rw [serverSwitch_dependency hcode] at h
    cases h
    intro f
    cases f <;> exact Or.inl rfl
  · rw [serverSwitch_unserved hcode hu] at h
    cases h
    exact fun f => Or.inl rfl

theorem ssdsServerProcess_pieces {status : Errors} (hs : s₀.Rest sv.sock)
    (h : ssdsServerProcess env fuel sv = .ok (status, sv')) : Untouched s₀ sv sv' := by
  obtain ⟨buf, t, hr, hm⟩ := ssdsServerProcess_ok_iff.1 h
  obtain ⟨g, x, hf, -, -⟩ := sockRecv_iff.1 hr
  have hreceived : Untouched s₀ sv (sv.received t) := by
    intro f
    cases f <;> exact Or.inl rfl
  cases buf with
  | none =>
    cases hm
    exact hreceived
  | some b =>
    rw [serverMessage_some] at hm
    exact hreceived.trans (serverSwitch_pieces (hs.trans hf.rest) hm)

/-- **A session** leaves pieces of its own connection in the files it touches. -/
theorem sessionLoop_pieces {status : Errors} (hs : s₀.Rest sv.sock)
    (h : sessionLoop env fuel sv = .ok (status, sv')) : Untouched s₀ sv sv' := by
  induction fuel generalizing sv with
  | zero => cases h
  | succ fuel ih =>
    cases hc : sv.clientEnd with
    | true =>
      rw [sessionLoop_clientEnd hc] at h
      cases h
      exact fun f => Or.inl rfl
    | false =>
      obtain ⟨st, sv₁, hp, hrest⟩ := (sessionLoop_ok_iff hc).1 h
      have hcall := ssdsServerProcess_pieces hs hp
      obtain ⟨g, x, t, hf, ht⟩ := ssdsServerProcess_rest hp
      rcases hrest with ⟨-, h⟩ | ⟨-, heq⟩
      · exact hcall.trans (ih (hs.trans (hf.rest.trans ht)) h)
      · cases heq
        exact hcall

/-- A file is the one at the start, or a piece of what one of the clients sent. -/
def OneOrigin (conns : List (Option Sock)) (sv sv' : Server) : Prop :=
  ∀ f, sv'.file f = sv.file f ∨
    ∃ sock c, some sock ∈ conns ∧ sv'.file f = some c ∧ PieceOf sock c

theorem Served.oneOrigin {conns : List (Option Sock)} (h : Served env conns sv sv') :
    OneOrigin conns sv sv' := by
  induction conns generalizing sv with
  | nil =>
    obtain rfl := Served.nil_iff.1 h
    exact fun f => Or.inl rfl
  | cons conn conns ih =>
    obtain ⟨fuel, status, sv₁, hconn, h⟩ := Served.cons_iff.1 h
    intro f
    rcases ih h f with hsame | ⟨sock, c, hmem, hc, hpiece⟩
    · rw [hsame]
      cases conn with
      | none =>
        cases hconn
        exact Or.inl rfl
      | some sock =>
        rcases sessionLoop_pieces (.refl sock) hconn f with hkept | ⟨c, hc, hpiece⟩
        · refine Or.inl (hkept.trans ?_)
          cases f <;> rfl
        · exact Or.inr ⟨sock, c, List.mem_cons_self, hc, hpiece⟩
    · exact Or.inr ⟨sock, c, List.mem_cons_of_mem conn hmem, hc, hpiece⟩

/-- **No file mixes two clients**, after any run of the server program. -/
theorem served_files (host : ServerHost) (name : Arg) (args : List Arg)
    (conns : List (Option Sock)) (sv sv' : Server)
    (h : serverMain host (name :: args) env fuel conns sv = .ok (.waiting sv')) :
    OneOrigin conns sv sv' := by
  obtain ⟨-, -, hloop⟩ := (serverMain_waiting_iff name conns).1 h
  exact Served.oneOrigin ⟨fuel, acceptLoop_waiting_iff.1 hloop⟩

/-- The text that announces a file of two bytes. -/
def twoBytesText : List Byte := printed (ssdsJsCrToString (sendFileHeader .solv 2))

/-- An upload of two bytes, then a connection that is lost. -/
def uploadThenLost : Sock :=
  ⟨[.got twoBytesText (by decide), .got [7, 8] (by decide), .err], true⟩

theorem served_files_upload : ∃ sv', OneOrigin [none, some uploadThenLost] (plainServer ⟨[], true⟩) sv' ∧
    sv'.solv = some [7, 8] :=
  ⟨_, @served_files (plainEnv (loadOnly twoBytesText (ssdsJsCrToString (sendFileHeader .solv 2)))) 3
    openHost [] [] [none, some uploadThenLost] (plainServer ⟨[], true⟩) _ rfl, rfl⟩

end Rds
