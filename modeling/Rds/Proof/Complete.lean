import Rds.Proof.Acknowledge
import Rds.Proof.Termination

/-!
# When an upload completes

The client has written the header and the whole file and waits for the reply; every byte
is delivered and nothing fails. The server still replies only if the bytes happen to be
cut into reads the way its receive loops expect: `upload_completes_iff`.
-/

namespace Rds

variable {env : Env} {f : UploadFile}

/-- A read of 1 to `MAX_INPUT_LEN` bytes. -/
def ReadRes.Delivers (r : ReadRes) : Prop := ∃ bs le, r = .got bs le ∧ bs ≠ []

theorem ReadRes.Delivers.bytes_ne {r : ReadRes} (h : r.Delivers) : r.bytes ≠ [] := by
  obtain ⟨bs, le, rfl, hne⟩ := h
  exact hne

theorem ReadRes.Delivers.ne_err {r : ReadRes} (h : r.Delivers) : r ≠ .err := by
  obtain ⟨bs, le, rfl, -⟩ := h
  exact ReadRes.noConfusion

/-- Reads that deliver something are as many as their bytes allow. -/
theorem bytesOf_eq_nil {rs : List ReadRes} (h : ∀ r ∈ rs, r.Delivers) (hb : bytesOf rs = []) :
    rs = [] := by
  cases rs with
  | nil => rfl
  | cons r rs =>
    rw [bytesOf_cons, List.append_eq_nil_iff] at hb
    exact absurd hb.1 (h r List.mem_cons_self).bytes_ne

theorem bytesOf_append (rs ts : List ReadRes) : bytesOf (rs ++ ts) = bytesOf rs ++ bytesOf ts :=
  List.flatMap_append

theorem bytesOf_concat (g : List ReadRes) (x : ReadRes) :
    bytesOf (g ++ [x]) = bytesOf g ++ x.bytes := by
  rw [bytesOf_append]
  simp [bytesOf]

/-- A frame of delivering reads counts its bytes. -/
theorem frameRet_eq {g : List ReadRes} {x : ReadRes} (hg : ∀ r ∈ g, ¬ r.Short) (hx : x ≠ .err) :
    frameRet g x = (bytesOf (g ++ [x])).length := by
  unfold frameRet
  rw [bytesOf_concat, List.length_append, bytesOf_full_length hg]
  cases x with
  | err => exact absurd rfl hx
  | got bs le => simp [ReadRes.ret, ReadRes.bytes]

/-- **A frame is received as one message**, if its reads deliver something. -/
theorem IsFrame.recv {h : List ReadRes} (hf : IsFrame h) (hd : ∀ r ∈ h, r.Delivers)
    (rest : List ReadRes) (closed : Bool) :
    ∃ b, sockRecv ⟨h ++ rest, closed⟩ = .ok (some b, ⟨rest, closed⟩) ∧
      cstr b = cstr (bytesOf h) := by
  obtain ⟨g, x, rfl, hg, hx, hl⟩ := hf
  have hne : x ≠ .err := (hd x (by simp)).ne_err
  obtain ⟨b, hb⟩ : ∃ b, frameBuf g x = some b := by
    unfold frameBuf
    split
    · exact absurd rfl hne
    · exact ⟨_, rfl⟩
  refine ⟨b, ?_, ?_⟩
  · rw [List.append_assoc]
    exact sockRecv_iff.2 ⟨g, x, .of_reads hg hx rest closed, hl, hb.symm⟩
  · rw [cstr_frameBuf hb, bytesOf_concat]

/-! ## The file, frame by frame -/

/-- **Whole frames that make up the file** end the loop of its upload by its count. -/
theorem receives_frames {n : ℕ} (hn : n < 2 ^ 31) (hcap : ∀ k, n ≤ env.fwrite k)
    (ds : List (List ReadRes)) (hd : ∀ d ∈ ds, IsFrame d) (hr : ∀ r ∈ ds.flatten, r.Delivers)
    (hne : ds ≠ []) : ∀ k w : ℕ, w + (bytesOf ds.flatten).length = n →
      ∃ j, Receives env n k w ⟨ds.flatten, false⟩ true j ⟨[], false⟩ := by
  induction ds with
  | nil => exact absurd rfl hne
  | cons d ds ih =>
    intro k w hw
    obtain ⟨g, x, rfl, hg, hx, hl⟩ := hd d List.mem_cons_self
    have hxr : x.Delivers := hr x (by simp)
    have hret : frameRet g x = (bytesOf (g ++ [x])).length := frameRet_eq hg hxr.ne_err
    have hbytes : bytesOf ((g ++ [x]) :: ds).flatten = bytesOf (g ++ [x]) ++ bytesOf ds.flatten := by
      rw [List.flatten_cons, bytesOf_append]
    rw [hbytes, List.length_append] at hw
    have hflat : ((g ++ [x]) :: ds).flatten = g ++ x :: ds.flatten := by simp
    rw [hflat]
    have hf : SockFrame ⟨g ++ x :: ds.flatten, false⟩ g x ⟨ds.flatten, false⟩ := .of_reads hg hx _ _
    have hint : toInt ((w : ℤ) + frameRet g x) = ((w + (bytesOf (g ++ [x])).length : ℕ) : ℤ) := by
      rw [hret]; push_cast; exact toInt_eq (by omega) (by omega)
    have h0 : 0 ≤ frameRet g x := by omega
    have hcap' : frameRet g x ≤ env.fwrite k := by have := hcap k; omega
    -- the last frame reaches the count, any other one leaves some of the file
    by_cases hds : ds = []
    · subst hds
      refine ⟨k + 1, .full hf hl h0 hcap' ?_⟩
      rw [hint]
      simp only [List.flatten_nil, bytesOf, List.flatMap_nil, List.length_nil] at hw ⊢
      omega
    · have hrest : 0 < (bytesOf ds.flatten).length := by
        rw [List.length_pos_iff]
        intro hb
        have hr' : ∀ r ∈ ds.flatten, r.Delivers := fun r h => hr r (by simp at h ⊢; tauto)
        have hnil := bytesOf_eq_nil hr' hb
        obtain ⟨e, es, rfl⟩ := List.exists_cons_of_ne_nil hds
        obtain ⟨g', x', rfl, -⟩ := hd e (by simp)
        simp at hnil
      obtain ⟨j, hj⟩ := ih (fun e he => hd e (List.mem_cons_of_mem _ he))
        (fun r h => hr r (by simp at h ⊢; tauto)) hds (k + 1) (w + (bytesOf (g ++ [x])).length) (by omega)
      refine ⟨j, .more hf hl h0 hcap' ?_ ?_⟩
      · rw [hint]; omega
      · rw [hint]; exact hj

/-- An upload on an open connection reads whole frames. -/
theorem Receives.frames {n w : ℤ} {k j : ℕ} {s t : Sock} {b : Bool}
    (h : Receives env n k w s b j t) (hc : s.closed = false) :
    ∃ ds, ds ≠ [] ∧ (∀ d ∈ ds, IsFrame d) ∧ s.reads = ds.flatten ++ t.reads := by
  -- on an open connection no frame ends with the end of the stream
  have one : ∀ {s g x t}, s.closed = false → SockFrame s g x t → g.length < recvLimit →
      IsFrame (g ++ [x]) ∧ s.reads = (g ++ [x]) ++ t.reads ∧ t.closed = false := by
    intro s g x t hc hf hl
    refine ⟨⟨g, x, rfl, hf.long, hf.short_last, hl⟩, ?_, hf.rest.closed.trans hc⟩
    rcases hf.reads_eq with h | ⟨hc', -⟩
    · rw [h]; simp
    · rw [hc] at hc'; cases hc'
  induction h with
  | full hf hl _ _ _ | fails hf hl _ =>
    obtain ⟨hframe, hr, -⟩ := one hc hf hl
    exact ⟨[_], by simp, by simpa using hframe, by simpa using hr⟩
  | more hf hl _ _ _ _ ih =>
    obtain ⟨hframe, hr, hc'⟩ := one hc hf hl
    obtain ⟨ds, -, hds, hrest⟩ := ih hc'
    refine ⟨_ :: ds, by simp, List.forall_mem_cons.2 ⟨hframe, hds⟩, ?_⟩
    rw [hr, hrest, List.flatten_cons]; simp

/-! ## The upload -/

/-- **The upload is served**: some call of the session decodes its header, stores the file
and replies. -/
def UploadServed (env : Env) (f : UploadFile) (file : List Byte) (sv : Server) : Prop :=
  ∃ u v fuel buf t, Session env sv u ∧ sockRecv u.sock = .ok (some buf, t) ∧
    Announces env.load f file.length (cstr buf) ∧
    ssdsServerProcess env fuel u = .ok (.ok, v) ∧ v.file f = some file ∧
    v.sent = u.sent ++ [ssdsJsCrToString (ssdsJsCrInit .answerOk)]

/-- **The reads keep header and file apart**: the header comes in reads of its own, all full
but the last. The file is not empty, its last read is not full, and nowhere are there as
many full reads in a row as the reallocation overflows at. -/
def Separated (hdr : List Byte) (reads : List ReadRes) : Prop :=
  ∃ h ds, reads = h ++ ds.flatten ∧ IsFrame h ∧ bytesOf h = hdr ∧ ds ≠ [] ∧ ∀ d ∈ ds, IsFrame d

/-- What is assumed of one upload: nothing fails, and only the whole header announces it. -/
structure UploadOk (env : Env) (f : UploadFile) (file hdr : List Byte) : Prop where
  size : file.length < 2 ^ 31
  load : env.load (cstr hdr) = some (some (ssdsJsCrToString (sendFileHeader f file.length)))
  whole : ∀ s p t, hdr = s ++ p ++ t → s ≠ [] ∨ t ≠ [] →
    ¬ Announces env.load f file.length (cstr p)
  fopen : ∀ k, env.fopen k = true
  fwrite : ∀ k, file.length ≤ env.fwrite k

/-- The reads of the stream `hdr ++ file` on an open connection. -/
structure Streams (sv : Server) (hdr file : List Byte) : Prop where
  delivers : ∀ r ∈ sv.sock.reads, r.Delivers
  bytes : bytesOf sv.sock.reads = hdr ++ file
  opened : sv.sock.closed = false

variable {file hdr : List Byte} {sv : Server}

/-- The reads behind those of the header carry the file. -/
theorem Streams.file_reads (hs : Streams sv hdr file) {h ds : List ReadRes}
    (hreads : sv.sock.reads = h ++ ds) (hhdr : bytesOf h = hdr) :
    bytesOf ds = file ∧ ∀ r ∈ ds, r.Delivers := by
  constructor
  · have hbytes := hs.bytes
    rw [hreads, bytesOf_append, hhdr] at hbytes
    exact List.append_cancel_left hbytes
  · intro r hr
    exact hs.delivers r (by rw [hreads]; exact List.mem_append_right _ hr)

/-- **Kept apart, they are served**: the first message is the header, the loop reads the
file. -/
theorem UploadServed.of_separated (ok : UploadOk env f file hdr) (hs : Streams sv hdr file)
    (h : Separated hdr sv.sock.reads) : UploadServed env f file sv := by
  obtain ⟨h, ds, hreads, hframe, hhdr, hne, hds⟩ := h
  obtain ⟨b, hrecv, hcstr⟩ := hframe.recv
    (fun r hr => hs.delivers r (by rw [hreads]; exact List.mem_append_left _ hr)) ds.flatten false
  have hsock : sv.sock = ⟨h ++ ds.flatten, false⟩ := by rw [← hreads, ← hs.opened]
  rw [← hsock] at hrecv
  rw [hhdr] at hcstr
  have hann : Announces env.load f file.length (cstr b) :=
    sendFileHeader_announces env.load f ok.size (by rw [hcstr]; exact ok.load)
  obtain ⟨root, hroot, hcode, hread⟩ := hann
  obtain ⟨hbytes, hdel⟩ := hs.file_reads hreads hhdr
  -- then the file, frame by frame
  obtain ⟨j, hrec⟩ := receives_frames ok.size ok.fwrite ds hds hdel hne (sv.tick + 2) 0
    (by rw [hbytes]; simp)
  obtain ⟨F, js', sv₁, he, hF⟩ := hrec.uploadLoop (uploadOf f) (ssdsJsCrInit .answerOk)
    ((sv.received ⟨ds.flatten, false⟩).setFile (uploadOf f).file []).tock
    (by cases f <;> rfl) (by cases f <;> rfl)
  have hjs : js' = ssdsJsCrInit .answerOk := he.json
  subst hjs
  have hbranch : uploadBranch env (uploadOf f) F (ssdsJsCrInit .answerOk) (.ofRoot root)
      (sv.received ⟨ds.flatten, false⟩) = .ok (.ok, sv₁.reply (ssdsJsCrInit .answerOk)) :=
    (uploadBranch_ok_iff hread).2 (Or.inl ⟨ok.fopen (sv.tick + 1), rfl, _, sv₁, hF F le_rfl, rfl⟩)
  have hcall : ssdsServerProcess env F sv = .ok (.ok, sv₁.reply (ssdsJsCrInit .answerOk)) := by
    refine ssdsServerProcess_ok_iff.2 ⟨some b, _, hrecv, ?_⟩
    rw [serverMessage_some, ssdsJsRdParse_some hroot, serverSwitch_upload hcode]
    exact hbranch
  refine ⟨sv, _, F, b, _, .start, hrecv, ⟨root, hroot, hcode, hread⟩, hcall, ?_⟩
  have hpre : [] ++ bytesOf (sv.received ⟨ds.flatten, false⟩).sock.reads <+: file := by
    rw [show (sv.received ⟨ds.flatten, false⟩).sock.reads = ds.flatten from rfl, hbytes]
    exact List.prefix_rfl
  rcases uploadBranch_exact ok.size hread hpre hbranch with ⟨-, hfile, hsent, -⟩ | ⟨msg, hsent⟩
  · exact ⟨hfile, hsent⟩
  · -- the loop answered with the message it was given
    have hsent' : (sv₁.reply (ssdsJsCrInit .answerOk)).sent =
        sv.sent ++ [ssdsJsCrToString (ssdsJsCrInit .answerOk)] := by
      have hframe := (UploadFrame.opened (sv.received ⟨ds.flatten, false⟩)).trans
        (uploadLoop_frame (hF F le_rfl))
      rw [Server.reply, hframe.sent]; rfl
    have hcode : replyCode (ssdsJsCrToString (ssdsJsCrInit .answerOk)) =
        .ok Code.answerError.num := by
      have heq := List.append_cancel_left (hsent'.symm.trans hsent)
      rw [(List.cons.inj heq).1, replyCode_error]
    rw [replyCode_init] at hcode
    cases hcode

/-- A call on an open connection takes at least one read. -/
theorem ssdsServerProcess_takes {fuel : ℕ} {sv sv' : Server} {st : Errors}
    (hr : ∀ r ∈ sv.sock.reads, r.Delivers) (hc : sv.sock.closed = false)
    (h : ssdsServerProcess env fuel sv = .ok (st, sv')) :
    ∃ p, p ≠ [] ∧ bytesOf sv.sock.reads = p ++ bytesOf sv'.sock.reads := by
  obtain ⟨g, x, t, hf, ht⟩ := ssdsServerProcess_rest h
  obtain ⟨p, hp⟩ := ht.bytes
  rcases hf.reads_eq with hreads | ⟨hc', -⟩
  · have hx : x.Delivers := hr x (by rw [hreads]; simp)
    refine ⟨bytesOf g ++ x.bytes ++ p, ?_, by rw [hf.content, hp]; simp⟩
    have := hx.bytes_ne
    simp [this]
  · rw [hc] at hc'; cases hc'

/-- A session that has taken no byte has made no call. -/
theorem Session.eq_start {sv u : Server} (h : Session env sv u)
    (hr : ∀ r ∈ sv.sock.reads, r.Delivers) (hc : sv.sock.closed = false)
    (hb : bytesOf sv.sock.reads = bytesOf u.sock.reads) : u = sv := by
  cases h with
  | start => rfl
  | @call fuel w v hw _ hp =>
    obtain ⟨q, hq⟩ := hw.rest.bytes
    obtain ⟨p, hpne, hp⟩ := ssdsServerProcess_takes
      (fun r h => hr r (hw.rest.reads.subset h)) (hw.rest.closed.trans hc) hp
    have hlen := congrArg List.length (hb.symm.trans (hq.trans (by rw [hp])))
    have hpos := List.length_pos_iff.2 hpne
    simp only [List.length_append] at hlen
    omega

/-- **What is served was kept apart.** -/
theorem UploadServed.separated (ok : UploadOk env f file hdr) (hs : Streams sv hdr file)
    (h : UploadServed env f file sv) : Separated hdr sv.sock.reads := by
  obtain ⟨u, v, fuel, buf, t, hses, hrecv, hann, hcall, hfile, hsent⟩ := h
  obtain ⟨buf', t', hrecv', hmsg⟩ := ssdsServerProcess_ok_iff.1 hcall
  rw [hrecv] at hrecv'; cases hrecv'
  obtain ⟨g, x, hf, hl, hbuf⟩ := sockRecv_iff.1 hrecv
  obtain ⟨pre, hpre⟩ := hses.rest.bytes
  have hstream : pre ++ (bytesOf g ++ x.bytes) ++ bytesOf t.reads <+: hdr ++ file := by
    rw [← hs.bytes, hpre, hf.content]; simp
  have hann' : Announces env.load f file.length (cstr (bytesOf g ++ x.bytes)) := by
    rw [← cstr_frameBuf hbuf.symm]; exact hann
  rcases stream_cut hstream with ⟨t', ht', hne⟩ | ⟨q, hq, hrest⟩
  · exact absurd hann' (ok.whole _ _ _ ht' (Or.inr hne))
  -- the reply is positive, so all of the file was still to come
  obtain ⟨root, hload, hcode, hread⟩ := hann
  rw [serverMessage_some, ssdsJsRdParse_some hload, serverSwitch_upload hcode] at hmsg
  have hexact : bytesOf v.sock.reads = [] ∧ (bytesOf t.reads).length = file.length := by
    rcases uploadBranch_exact ok.size hread hrest hmsg with ⟨-, -, -, hv, hlen⟩ | ⟨msg, hs'⟩
    · exact ⟨hv, hlen⟩
    · have heq := List.append_cancel_left (hsent.symm.trans hs')
      have hc := replyCode_error msg
      rw [← (List.cons.inj heq).1, replyCode_init] at hc
      cases hc
  obtain ⟨hv, hlen⟩ := hexact
  -- so none of it came with the header,
  have hq' : q = [] := by
    have := hrest.length_le
    rw [List.length_append] at this
    exact List.length_eq_zero_iff.1 (by omega)
  rw [hq', List.append_nil] at hq
  -- and nothing came before the header
  have hpre' : pre = [] := by
    by_contra hne
    exact ok.whole pre (bytesOf g ++ x.bytes) [] (by rw [List.append_nil]; exact hq.symm)
      (Or.inl hne) hann'
  subst hpre'
  have hu : u = sv := hses.eq_start hs.delivers hs.opened hpre
  subst hu
  -- the frames of the header and of the file
  have hreads : u.sock.reads = g ++ x :: t.reads := by
    rcases hf.reads_eq with h | ⟨hc, -⟩
    · exact h
    · rw [hs.opened] at hc; cases hc
  rcases (uploadBranch_ok_iff hread).1 hmsg with ⟨-, -, js', sv₁, hloop, rfl⟩ | ⟨-, hst, -⟩
  · obtain ⟨b, j, t', hrec, he⟩ := uploadLoop_receives hloop
    have hsock : ((u.received t).setFile (uploadOf f).file []).tock.sock = t := by cases f <;> rfl
    rw [hsock] at hrec
    obtain ⟨ds, hne, hds, hfile'⟩ := hrec.frames (hf.rest.closed.trans hs.opened)
    have hnil : t'.reads = [] := by
      refine bytesOf_eq_nil (fun r hr => hs.delivers r ?_) ?_
      · rw [hreads, hfile']; simp [hr]
      · rw [← he.sock]; exact hv
    rw [hnil, List.append_nil] at hfile'
    refine ⟨g ++ [x], ds, by rw [hreads, hfile']; simp, ⟨g, x, rfl, hf.long, hf.short_last, hl⟩, ?_,
      hne, hds⟩
    rw [bytesOf_concat, ← hq, List.nil_append]
  · cases hst

/-- Plain surroundings whose parser knows the header. -/
theorem UploadOk.plain {text : List Byte} (h0 : (0 : Byte) ∉ text) (hsize : file.length ≤ 1000000) :
    UploadOk (plainEnv (loadOnly text (ssdsJsCrToString (sendFileHeader f file.length)))) f file
      text where
  size := by omega
  load := by rw [cstr_eq_self h0]; exact if_pos rfl
  whole s p t h hst := by
    rintro ⟨r, hr, -⟩
    have hnone := loadOnly_piece (ssdsJsCrToString (sendFileHeader f file.length)) h hst
    have hr' : loadOnly text (ssdsJsCrToString (sendFileHeader f file.length)) (cstr p) = some r := hr
    rw [hnone] at hr'
    cases hr'
  fopen _ := rfl
  fwrite _ := hsize

/-- **When an upload completes.** The stream `hdr ++ file` of an upload is delivered in full,
nothing fails, and the client waits for the reply. -/
theorem upload_completes_iff (ok : UploadOk env f file hdr) (hs : Streams sv hdr file) :
    UploadServed env f file sv ↔ Separated hdr sv.sock.reads :=
  ⟨UploadServed.separated ok hs, UploadServed.of_separated ok hs⟩

/-- Header and file in reads of their own. -/
theorem upload_completes_iff_three : UploadServed
    (plainEnv (loadOnly headerText (ssdsJsCrToString (sendFileHeader .solv 3)))) .solv [1, 2, 3]
    (plainServer ⟨[.got headerText (by decide), .got [1, 2, 3] (by decide)], false⟩) := by
  refine (@upload_completes_iff _ _ [1, 2, 3] headerText _ (.plain (by decide) (by decide))
    ⟨?_, rfl, rfl⟩).2 ⟨[.got headerText (by decide)], [[.got [1, 2, 3] (by decide)]], rfl,
      ⟨[], _, rfl, by simp, by decide, by decide⟩, rfl, by simp, ?_⟩
  · simp only [plainServer, List.forall_mem_cons]
    exact ⟨⟨_, _, rfl, by decide⟩, ⟨_, _, rfl, by decide⟩, by simp⟩
  · intro d hd
    rw [List.mem_singleton] at hd
    subst hd
    exact ⟨[], _, rfl, by simp, by decide, by decide⟩

/-- The header `{"code":2,"data":{"read":0}}`. -/
def emptyHeaderText : List Byte :=
  [123, 34, 99, 111, 100, 101, 34, 58, 50, 44, 34, 100, 97, 116, 97, 34, 58, 123, 34, 114, 101, 97,
    100, 34, 58, 48, 125, 125]

/-- **An empty file is never acknowledged**: the server waits for a byte that never comes. -/
theorem empty_upload_waits : ¬ UploadServed
    (plainEnv (loadOnly emptyHeaderText (ssdsJsCrToString (sendFileHeader .solv 0)))) .solv []
    (plainServer ⟨[.got emptyHeaderText (by decide)], false⟩) := by
  intro h
  have hs : Streams (plainServer ⟨[.got emptyHeaderText (by decide)], false⟩) emptyHeaderText [] := by
    refine ⟨?_, rfl, rfl⟩
    simp only [plainServer, List.forall_mem_cons]
    exact ⟨⟨_, _, rfl, by decide⟩, by simp⟩
  obtain ⟨h, ds, hreads, -, hh, hne, hds⟩ :=
    UploadServed.separated (@UploadOk.plain .solv [] _ (by decide) (by decide)) hs h
  obtain ⟨hb, hdel⟩ := hs.file_reads hreads hh
  have hnil := bytesOf_eq_nil hdel hb
  obtain ⟨d, ds, rfl⟩ := List.exists_cons_of_ne_nil hne
  obtain ⟨g, x, rfl, -⟩ := hds d List.mem_cons_self
  simp at hnil

end Rds
