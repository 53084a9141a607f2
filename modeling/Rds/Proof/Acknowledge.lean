import Rds.Proof.Session

/-!
# What an acknowledged upload means

The client of an upload writes a header and the file, and then waits for the reply.
However its stream is cut into reads, and wherever it ends or a read fails, the server
answers `ANSWER_OK` only with the client's file on its disk: `upload_acknowledged`.

Every byte the server drops, swallows with the header or miscounts after a failed read
leaves fewer bytes to come than the count still needs (`UploadInv`), so that the count
cannot be reached any more.
-/

namespace Rds

variable {env : Env} {f : UploadFile} {fuel : ℕ}

/-- The text is a message that announces the upload of a file of `n` bytes. -/
def Announces (load : List Byte → Option (Option Json)) (f : UploadFile) (n : ℕ)
    (text : List Byte) : Prop :=
  ∃ root, load text = some root ∧ ssdsJsRdGetCode (.ofRoot root) = .ok f.code.num ∧
    ssdsJsRdGetReadBytes (.ofRoot root) = .ok n

/-- The code the peer reads from a reply. -/
def replyCode (r : Json) : Except Halt ℤ := ssdsJsRdGetCode (.ofRoot (some r))

/-! ## The replies -/

@[simp] theorem replyCode_init (c : Code) :
    replyCode (ssdsJsCrToString (ssdsJsCrInit c)) = .ok c.num := by cases c <;> rfl

/-- An answer whose code was set to `ANSWER_ERROR` says so. -/
@[simp] theorem replyCode_error (msg : String) :
    replyCode (ssdsJsCrToString
      (ssdsJsCrSetMessage (ssdsJsCrInsertCode (ssdsJsCrInit .answerOk) .answerError) msg)) =
      .ok Code.answerError.num := rfl

theorem sendFileHeader_code (f : UploadFile) (n : ℕ) :
    ssdsJsRdGetCode (.ofRoot (some (ssdsJsCrToString (sendFileHeader f n)))) = .ok f.code.num := by
  cases f <;> rfl

theorem sendFileHeader_readBytes (f : UploadFile) {n : ℕ} (hn : n < 2 ^ 31) :
    ssdsJsRdGetReadBytes (.ofRoot (some (ssdsJsCrToString (sendFileHeader f n)))) = .ok n := by
  have hread : ssdsJsRdGetReadBytes (.ofRoot (some (ssdsJsCrToString (sendFileHeader f n)))) =
      .ok (toInt (toInt n)) := by cases f <;> rfl
  have hi : toInt n = n := toInt_eq (by omega) (by omega)
  rw [hread, hi, hi]

/-- **A header announces what it was made for.** -/
theorem sendFileHeader_announces (load : List Byte → Option (Option Json)) (f : UploadFile)
    {n : ℕ} (hn : n < 2 ^ 31) {text : List Byte}
    (h : load text = some (some (ssdsJsCrToString (sendFileHeader f n)))) :
    Announces load f n text :=
  ⟨_, h, sendFileHeader_code f n, sendFileHeader_readBytes f hn⟩

/-! ## The client's writes -/

theorem sendFileLoop_flatten (file : List Byte) : (sendFileLoop file).flatten = file := by
  induction file using sendFileLoop.induct with
  | case1 => simp [sendFileLoop]
  | case2 file h ih =>
    rw [sendFileLoop, if_neg h, List.flatten_cons, ih, List.take_append_drop]

/-- The stream of an upload is the header and the file. -/
theorem sendFileWrites_flatten (print : Json → List Byte) (f : UploadFile) (file : List Byte) :
    (sendFileWrites print f file).flatten =
      print (ssdsJsCrToString (sendFileHeader f file.length)) ++ file := by
  rw [sendFileWrites, List.flatten_cons, sendFileLoop_flatten]

/-! ## The acknowledgement -/

/-- **The loop stores the file or says it did not**, started on what is left of the file. -/
theorem uploadBranch_exact {file pre : List Byte} (hN : file.length < 2 ^ 31) {json : SsdsJsonRead}
    (hn : ssdsJsRdGetReadBytes json = .ok file.length) {sv sv' : Server} {status : Errors}
    (hpre : pre ++ bytesOf sv.sock.reads <+: file)
    (h : uploadBranch env (uploadOf f) fuel (ssdsJsCrInit .answerOk) json sv = .ok (status, sv')) :
    (status = .ok ∧ sv'.file f = some file ∧
        sv'.sent = sv.sent ++ [ssdsJsCrToString (ssdsJsCrInit .answerOk)] ∧
        bytesOf sv'.sock.reads = [] ∧ (bytesOf sv.sock.reads).length = file.length) ∨
      ∃ msg, sv'.sent = sv.sent ++ [ssdsJsCrToString
        (ssdsJsCrSetMessage (ssdsJsCrInsertCode (ssdsJsCrInit .answerOk) .answerError) msg)] := by
  rcases (uploadBranch_ok_iff hn).1 h with ⟨-, hs, js', sv₁, hl, rfl⟩ | ⟨-, -, rfl⟩
  · have hfile : (sv.setFile (uploadOf f).file []).tock.file (uploadOf f).file = some [] :=
      Server.file_setFile sv (uploadOf f).file []
    have hsock : (sv.setFile (uploadOf f).file []).tock.sock = sv.sock :=
      Server.sock_setFile sv (uploadOf f).file []
    have hinv : UploadInv [] (bytesOf (sv.setFile (uploadOf f).file []).tock.sock.reads) file := by
      rw [hsock]; exact UploadInv.start hpre
    have hsent : sv₁.sent = sv.sent :=
      ((UploadFrame.opened sv).trans (uploadLoop_frame hl)).sent
    rcases uploadLoop_exact hN hfile hinv hl with ⟨rfl, hd, hr, hlen⟩ | rfl
    · left
      refine ⟨hs, ?_, by rw [Server.reply, hsent], hr, ?_⟩
      · rw [Server.file_reply, ← hd, uploadOf_file]
      · rw [hsock] at hlen; simpa using hlen
    · exact Or.inr ⟨(uploadOf f).writeError, by rw [Server.reply, hsent]; rfl⟩
  · exact Or.inr ⟨(uploadOf f).createError, rfl⟩

/-- A message cut out of the stream either ends inside the header, or leaves nothing but an
end of the file to come. -/
theorem stream_cut {hdr file pre p rest : List Byte} (h : pre ++ p ++ rest <+: hdr ++ file) :
    (∃ t, hdr = pre ++ p ++ t ∧ t ≠ []) ∨ ∃ q, pre ++ p = hdr ++ q ∧ q ++ rest <+: file := by
  by_cases hlen : (pre ++ p).length < hdr.length
  · left
    have hp : pre ++ p <+: hdr := List.prefix_of_prefix_length_le
      ((List.prefix_append _ rest).trans h) (List.prefix_append hdr file) hlen.le
    obtain ⟨t, rfl⟩ := hp
    refine ⟨t, rfl, ?_⟩
    rintro rfl
    simp at hlen
  · right
    have hp : hdr <+: pre ++ p := List.prefix_of_prefix_length_le
      (List.prefix_append hdr file) ((List.prefix_append _ rest).trans h) (not_lt.1 hlen)
    obtain ⟨q, hq⟩ := hp
    rw [← hq, List.append_assoc] at h
    exact ⟨q, hq.symm, (List.prefix_append_right_inj hdr).1 h⟩

/-- **No corrupted upload is acknowledged.** The client's stream is cut into reads in any
way, from any state of the session on, and may end or fail anywhere. If a call decodes the
header and one of its replies carries `ANSWER_OK`, the file it wrote is the client's. A
document cut short is taken not to be accepted as the header. -/
theorem upload_acknowledged {print : Json → List Byte} {file : List Byte}
    (hN : file.length < 2 ^ 31)
    (hjson : ∀ s p t, print (ssdsJsCrToString (sendFileHeader f file.length)) = s ++ p ++ t →
      t ≠ [] → ¬ Announces env.load f file.length (cstr p))
    {sv₀ sv sv' : Server}
    (hstream : bytesOf sv₀.sock.reads <+: (sendFileWrites print f file).flatten)
    (hsession : Session env sv₀ sv) {buf : List Byte} {t : Sock}
    (hrecv : sockRecv sv.sock = .ok (some buf, t))
    (hdecoded : Announces env.load f file.length (cstr buf)) {status : Errors}
    (hcall : ssdsServerProcess env fuel sv = .ok (status, sv')) {replies : List Json} {r : Json}
    (hsent : sv'.sent = sv.sent ++ replies) (hr : r ∈ replies)
    (hok : replyCode r = .ok Code.answerOk.num) : sv'.file f = some file := by
  obtain ⟨buf', t', hrecv', hmsg⟩ := ssdsServerProcess_ok_iff.1 hcall
  rw [hrecv] at hrecv'; cases hrecv'
  obtain ⟨g, x, hf, -, hbuf⟩ := sockRecv_iff.1 hrecv
  -- what is still to come after the header is an end of the file
  obtain ⟨pre, hpre⟩ := hsession.rest.bytes
  rw [sendFileWrites_flatten, hpre, hf.content, ← List.append_assoc] at hstream
  have hrest : ∃ q, q ++ bytesOf t.reads <+: file := by
    rcases stream_cut hstream with ⟨t', ht', hne⟩ | ⟨q, -, hq⟩
    · rw [cstr_frameBuf hbuf.symm] at hdecoded
      exact absurd hdecoded (hjson pre _ t' ht' hne)
    · exact ⟨q, hq⟩
  obtain ⟨q, hq⟩ := hrest
  obtain ⟨root, hload, hcode, hread⟩ := hdecoded
  rw [serverMessage_some, ssdsJsRdParse_some hload, serverSwitch_upload hcode] at hmsg
  rcases uploadBranch_exact hN hread hq hmsg with ⟨-, hfile, -⟩ | ⟨msg, hs⟩
  · exact hfile
  · have hlast : replies = [ssdsJsCrToString
        (ssdsJsCrSetMessage (ssdsJsCrInsertCode (ssdsJsCrInit .answerOk) .answerError) msg)] := by
      have : sv.sent ++ replies = sv.sent ++ _ := hsent.symm.trans hs
      exact List.append_cancel_left this
    rw [hlast, List.mem_singleton] at hr
    rw [hr, replyCode_error] at hok
    cases hok

/-- The header `{"code":2,"data":{"read":3}}`. -/
def headerText : List Byte :=
  [123, 34, 99, 111, 100, 101, 34, 58, 50, 44, 34, 100, 97, 116, 97, 34, 58, 123, 34, 114, 101, 97,
    100, 34, 58, 51, 125, 125]

/-- A file of three bytes, cut after its first one. -/
theorem upload_acknowledged_three :
    ({ plainServer ⟨[], false⟩ with
        solv := some [1, 2, 3], sent := [ssdsJsCrToString (ssdsJsCrInit .answerOk)], tick := 4 } :
      Server).file .solv = some [1, 2, 3] := by
  let root := ssdsJsCrToString (sendFileHeader .solv 3)
  let file : List Byte := [1, 2, 3]
  let sock : Sock :=
    ⟨[.got headerText (by decide), .got [1] (by decide), .got [2, 3] (by decide)], false⟩
  have hjson : ∀ s p t, headerText = s ++ p ++ t → t ≠ [] →
      ¬ Announces (loadOnly headerText root) .solv file.length (cstr p) := by
    rintro s p t h ht ⟨r, hr, -⟩
    rw [loadOnly_piece root h (Or.inr ht)] at hr
    cases hr
  have hstream : bytesOf sock.reads <+: (sendFileWrites (fun _ => headerText) .solv file).flatten := by
    rw [sendFileWrites_flatten]; exact List.prefix_rfl
  exact @upload_acknowledged (plainEnv (loadOnly headerText root)) .solv 3 (fun _ => headerText) file
    (by decide) hjson (plainServer sock) (plainServer sock) _ hstream .start
    (headerText ++ List.replicate 1972 0) ⟨sock.reads.tail, false⟩ rfl ⟨some root, rfl, rfl, rfl⟩
    .ok rfl [ssdsJsCrToString (ssdsJsCrInit .answerOk)] _ rfl List.mem_cons_self rfl

end Rds
