import Rds.Proof.Isolation

/-!
# What a request waits for

A run of the client on a connection that keeps a record of what goes over it. Whatever comes
back, and wherever the run ends:

* `ssdsSendFile_gated`: one upload, and when it counts as acknowledged.
* `checkId_gated`: both files are dealt with before a request is made.
* `uploads_gate_requests`: the whole run.
-/

namespace Rds

open Invariant

variable {σ : Type} {peer : Peer σ} {env : ClientEnv} {m₀ : Machine}

/-! ## What goes over a connection -/

/-- A message or data the client writes, or what a receive gives it. -/
inductive WireEvent
  | sent (msg : Json)
  | data (bs : List Byte)
  | received (d : Delivery)

/-- The same connection, with a record. -/
def Peer.logged (peer : Peer σ) : Peer (σ × List WireEvent) where
  write msg c := (peer.write msg c.1, c.2 ++ [.sent msg])
  writeData bs c := (peer.writeData bs c.1, c.2 ++ [.data bs])
  recv c :=
    match peer.recv c.1 with
    | (.ok d, s) => (.ok d, (s, c.2 ++ [.received d]))
    | (.error h, s) => (.error h, (s, c.2))

/-- What comes back parses as a JSON object. -/
def Peer.SpeaksJson (peer : Peer σ) : Prop :=
  ∀ s d, (peer.recv s).1 = .ok d → ∃ members, d = .document (some (.obj members))

/-- A message that asks for a solving. -/
def WireEvent.isRequest : WireEvent → Bool
  | .sent msg =>
    match replyCode msg with
    | .ok code => code ∈ getCodes.map Code.num
    | .error _ => false
  | _ => false

/-- What an upload writes. -/
def uploadWrites (f : UploadFile) (file : List Byte) : List WireEvent :=
  .sent (headerDoc f file.length) :: (sendFileLoop file).map .data

/-- The file was uploaded, and the reply to that was `ANSWER_OK`. -/
def Uploaded (m₀ : Machine) (log : List WireEvent) (f : UploadFile) : Prop :=
  ∃ file pre reply post, m₀.original f = some file ∧
    log = pre ++ uploadWrites f file ++ .received (.document (some reply)) :: post ∧
    replyCode reply = .ok Code.answerOk.num

/-- The client is known, and the file looks like its backup. -/
def Unchanged (m₀ : Machine) (f : UploadFile) : Prop :=
  m₀.id ≠ none ∧ compareFiles (m₀.original f) (m₀.backup f) = .ok

/-- **The law** about a run that was started on a machine `m₀`, by what went over the connection
and what the run did. -/
structure Gated (m₀ : Machine) (r : ClientRun (σ × List WireEvent)) : Prop where
  /-- A request is sent after each file was found unchanged or was uploaded. -/
  requests : ∀ pre msg post, r.conn.2 = pre ++ .sent msg :: post →
    (WireEvent.sent msg).isRequest = true → ∀ f, Unchanged m₀ f ∨ Uploaded m₀ pre f
  once : r.conn.2.countP WireEvent.isRequest ≤ 1
  /-- A backup that is not what it was has been copied. -/
  backups : ∀ f, r.machine.backup f ≠ m₀.backup f → .copied f ∈ r.trace
  /-- A copy is made after the acknowledgement. -/
  copies : ∀ pre f post, r.trace = pre ++ .copied f :: post → .acknowledged f ∈ pre
  acknowledged : ∀ f, .acknowledged f ∈ r.trace → Uploaded m₀ r.conn.2 f

/-! ## The invariant -/

/-- No request among these. -/
def Silent (log : List WireEvent) : Prop := ∀ e ∈ log, e.isRequest = false

/-- One request was made, and both files had been dealt with. -/
def Asked (m₀ : Machine) (log : List WireEvent) : Prop :=
  ∃ pre msg post, log = pre ++ .sent msg :: post ∧ Silent pre ∧ Silent post ∧
    ∀ f, Unchanged m₀ f ∨ Uploaded m₀ pre f

/-- **What a run keeps** about its uploads and backups. -/
structure Recorded (m₀ : Machine) (r : ClientRun (σ × List WireEvent)) : Prop where
  original : r.machine.original = m₀.original
  backups : ∀ f, r.machine.backup f ≠ m₀.backup f → .copied f ∈ r.trace
  copies : ∀ pre f post, r.trace = pre ++ .copied f :: post → .acknowledged f ∈ pre
  acknowledged : ∀ f, .acknowledged f ∈ r.trace → Uploaded m₀ r.conn.2 f

/-- **What holds wherever a run ends.** -/
def Lawful (m₀ : Machine) (r : ClientRun (σ × List WireEvent)) : Prop :=
  Recorded m₀ r ∧ (Silent r.conn.2 ∨ Asked m₀ r.conn.2)

theorem Uploaded.append {log : List WireEvent} {f : UploadFile} (h : Uploaded m₀ log f)
    (log' : List WireEvent) : Uploaded m₀ (log ++ log') f := by
  obtain ⟨file, pre, reply, post, hfile, rfl, hcode⟩ := h
  refine ⟨file, pre, reply, post ++ log', hfile, ?_, hcode⟩
  rw [List.append_assoc, List.cons_append]

theorem Silent.append {log log' : List WireEvent} (h : Silent log) (h' : Silent log') :
    Silent (log ++ log') := by
  intro e he
  rcases List.mem_append.1 he with he | he
  · exact h e he
  · exact h' e he

/-- **An upload is no request.** -/
theorem silent_uploadWrites (f : UploadFile) (file : List Byte) : Silent (uploadWrites f file) := by
  intro e he
  rcases List.mem_cons.1 he with rfl | he
  · have hcode : replyCode (headerDoc f file.length) = .ok f.code.num :=
      sendFileHeader_code f file.length
    simp only [WireEvent.isRequest, hcode]
    cases f <;> decide
  · obtain ⟨bs, -, rfl⟩ := List.mem_map.1 he
    rfl

theorem silent_received (d : Delivery) : Silent [.received d] := by
  intro e he
  rw [List.mem_singleton.1 he]
  rfl

/-- **The invariant gives the law.** -/
theorem Lawful.gated {r : ClientRun (σ × List WireEvent)} (h : Lawful m₀ r) : Gated m₀ r := by
  obtain ⟨h, hlog⟩ := h
  have hcount : ∀ {log}, Silent log → log.countP WireEvent.isRequest = 0 := by
    intro log hs
    rw [List.countP_eq_zero]
    intro e he
    rw [hs e he]
    decide
  refine ⟨?_, ?_, h.backups, h.copies, h.acknowledged⟩
  · intro pre msg post hsplit hreq f
    rcases hlog with hs | ⟨pre', msg', post', hlog, hpre, hpost, hdealt⟩
    · have hno := hs (.sent msg) (by rw [hsplit]; simp)
      rw [hreq] at hno
      cases hno
    · rw [hlog] at hsplit
      -- what was sent before the one request is no request, and neither is what came after
      rcases List.append_eq_append_iff.1 hsplit with ⟨more, rfl, hmore⟩ | ⟨more, rfl, hmore⟩
      · exact (hdealt f).imp_right fun hup => hup.append more
      · cases more with
        | nil =>
          rw [List.append_nil] at hdealt
          exact hdealt f
        | cons e more =>
          obtain ⟨rfl, -⟩ := List.cons.inj hmore
          have hno := hpre (.sent msg) (by simp)
          rw [hreq] at hno
          cases hno
  · rcases hlog with hs | ⟨pre, msg, post, hlog, hpre, hpost, -⟩
    · rw [hcount hs]
      exact Nat.zero_le 1
    · rw [hlog, List.countP_append, List.countP_cons, hcount hpre, hcount hpost]
      split
      · exact Nat.le_refl 1
      · exact Nat.zero_le 1

/-! ## One run -/

/-- Until a request is made. -/
structure Quiet (m₀ : Machine) (r : ClientRun (σ × List WireEvent)) : Prop where
  recorded : Recorded m₀ r
  silent : Silent r.conn.2

theorem Quiet.lawful {r : ClientRun (σ × List WireEvent)} (h : Quiet m₀ r) : Lawful m₀ r :=
  ⟨h.recorded, Or.inl h.silent⟩

/-- More goes over the connection. -/
theorem Recorded.logs {r r' : ClientRun (σ × List WireEvent)} (h : Recorded m₀ r)
    (hm : r'.machine = r.machine) (ht : r'.trace = r.trace) {log : List WireEvent}
    (hlog : r'.conn.2 = r.conn.2 ++ log) : Recorded m₀ r' := by
  refine ⟨by rw [hm]; exact h.original, ?_, ?_, ?_⟩
  · rw [hm, ht]
    exact h.backups
  · rw [ht]
    exact h.copies
  · intro f hf
    rw [ht] at hf
    rw [hlog]
    exact (h.acknowledged f hf).append log

/-- What a run does goes on the record. -/
theorem Recorded.records {r : ClientRun (σ × List WireEvent)} (h : Recorded m₀ r) {e : ClientEvent}
    (hack : ∀ f, e = .acknowledged f → Uploaded m₀ r.conn.2 f)
    (hcopied : ∀ f, e = .copied f → .acknowledged f ∈ r.trace) :
    Recorded m₀ { r with trace := r.trace ++ [e] } := by
  refine ⟨h.original, ?_, ?_, ?_⟩
  · intro f hf
    exact List.mem_append_left _ (h.backups f hf)
  · intro pre f post hsplit
    rcases List.append_eq_append_iff.1 hsplit with ⟨more, rfl, hmore⟩ | ⟨more, hpre, hmore⟩
    · cases more with
      | nil =>
        rw [List.append_nil]
        exact hcopied f (List.cons.inj hmore).1
      | cons e' more => simp at hmore
    · cases more with
      | nil =>
        rw [List.append_nil] at hpre
        rw [← hpre]
        exact hcopied f (List.cons.inj hmore).1.symm
      | cons e' more =>
        obtain ⟨rfl, -⟩ := List.cons.inj hmore
        exact h.copies pre f more hpre
  · intro f hf
    rcases List.mem_append.1 hf with hf | hf
    · exact h.acknowledged f hf
    · exact hack f (List.mem_singleton.1 hf).symm

/-- A copy of a file that is on the record. -/
theorem Recorded.copy {f : UploadFile} {r : ClientRun (σ × List WireEvent)} (h : Recorded m₀ r)
    (hf : .copied f ∈ r.trace) (c : Option (List Byte)) :
    Recorded m₀ { r with
      machine := { r.machine with backup := Function.update r.machine.backup f c } } := by
  refine ⟨h.original, ?_, h.copies, h.acknowledged⟩
  intro g hg
  by_cases hgf : g = f
  · rw [hgf]
    exact hf
  · refine h.backups g fun hback => hg ?_
    exact (Function.update_of_ne hgf c _).trans hback

/-- The writes of an upload, as the record shows them. -/
theorem writeFile_logged (f : UploadFile) (file : List Byte) (c : σ × List WireEvent) :
    (writeFile peer.logged f file c).2 = c.2 ++ uploadWrites f file := by
  have hfold : ∀ (writes : List (List Byte)) (c : σ × List WireEvent),
      (writes.foldl (fun conn data => peer.logged.writeData data conn) c).2 =
        c.2 ++ writes.map .data := by
    intro writes
    induction writes with
    | nil => intro c; simp
    | cons w writes ih =>
      intro c
      rw [List.foldl_cons, ih]
      simp [Peer.logged]
  unfold writeFile
  rw [hfold]
  simp [Peer.logged, uploadWrites, headerDoc]

/-- A receive, as the record shows it. -/
theorem logged_recv (c : σ × List WireEvent) :
    (∀ d c', peer.logged.recv c = (.ok d, c') →
      (peer.recv c.1).1 = .ok d ∧ c'.2 = c.2 ++ [.received d]) ∧
    ∀ h c', peer.logged.recv c = (.error h, c') → c'.2 = c.2 := by
  unfold Peer.logged
  simp only
  cases hr : peer.recv c.1 with
  | mk d s =>
    cases d with
    | ok d =>
      refine ⟨?_, ?_⟩
      · intro d' c' h
        cases h
        exact ⟨rfl, rfl⟩
      · intro h c' hc
        cases hc
    | error e =>
      refine ⟨?_, ?_⟩
      · intro d' c' h
        cases h
      · intro h c' hc
        cases hc
        rfl

/-- **One upload.** What the client takes for acknowledged was answered with `ANSWER_OK`. -/
theorem ssdsSendFile_gated (hpeer : peer.SpeaksJson) (f : UploadFile)
    {r : ClientRun (σ × List WireEvent)} (hr : Quiet m₀ r) :
    Triple (· = r) (ssdsSendFile peer.logged env f)
      (fun s r' => Quiet m₀ r' ∧ r'.machine = r.machine ∧ r.trace ⊆ r'.trace ∧
        (s = .ok → .acknowledged f ∈ r'.trace))
      (Lawful m₀) := by
  unfold ssdsSendFile
  refine Triple.get_bind ?_
  cases ho : r.machine.original f with
  | none => exact Triple.pure ⟨hr, rfl, List.Subset.refl _, by intro h; cases h⟩
  | some file =>
    unfold record
    refine Triple.modify_bind (Triple.modify_bind ?_)
    have hsubset : r.trace ⊆ r.trace ++ [.upload f] := List.subset_append_left _ _
    have hup : Recorded m₀ { r with trace := r.trace ++ [.upload f] } :=
      hr.recorded.records (by simp) (by simp)
    have hwrites : (writeFile peer.logged f file r.conn).2 = r.conn.2 ++ uploadWrites f file :=
      writeFile_logged f file r.conn
    have hsilent := hr.silent.append (silent_uploadWrites f file)
    refine Triple.bind ((receive_triple _).weaken (fun _ _ h => h) ?_) ?_
    · -- nothing comes back
      rintro r' ⟨h, c, hrecv, rfl⟩
      have hlog := (logged_recv _).2 h c hrecv
      rw [hwrites] at hlog
      exact ⟨hup.logs rfl rfl hlog, Or.inl (by rw [hlog]; exact hsilent)⟩
    · rintro ⟨fresh, d⟩ r' ⟨c, hrecv, rfl⟩
      obtain ⟨hd, hlog⟩ := (logged_recv _).1 d c hrecv
      rw [hwrites] at hlog
      have hquiet : Quiet m₀
          ⟨c, r.machine, r.stdin, r.received + 1, r.trace ++ [.upload f], r.answer⟩ := by
        refine ⟨hup.logs rfl rfl (hlog.trans (List.append_assoc _ _ _)), ?_⟩
        rw [hlog]
        exact hsilent.append (silent_received d)
      unfold lift
      refine Triple.mk_bind ?_ fun _ _ => hquiet.lawful
      intro status hstatus
      by_cases hok : status = .ok
      · rw [if_pos hok]
        refine Triple.modify_bind (Triple.pure ?_)
        obtain ⟨members, rfl⟩ := hpeer _ _ hd
        have hcode := sendFileReply_ok (by rw [← hok]; exact hstatus)
        have hacked : Uploaded m₀ c.2 f := by
          refine ⟨file, r.conn.2, .obj members, [], ?_, hlog, hcode⟩
          rw [← hr.recorded.original]
          exact ho
        have hrec := hquiet.recorded.records (e := .acknowledged f)
          (fun g hg => by cases hg; exact hacked) (by simp)
        refine ⟨⟨hrec, hquiet.silent⟩, rfl, ?_, fun _ => by simp⟩
        exact List.Subset.trans hsubset (List.subset_append_left _ _)
      · rw [if_neg hok]
        exact Triple.pure ⟨hquiet, rfl, hsubset, fun h => absurd h hok⟩

/-- **An upload and its backup.** -/
theorem sendAndBackup_gated (hpeer : peer.SpeaksJson) (f : UploadFile)
    {r : ClientRun (σ × List WireEvent)} (hr : Quiet m₀ r) :
    Triple (· = r) (sendAndBackup peer.logged env f)
      (fun s r' => Quiet m₀ r' ∧ r.trace ⊆ r'.trace ∧
        (∀ g, g ≠ f → r'.machine.backup g = r.machine.backup g) ∧
        (s = .ok → .acknowledged f ∈ r'.trace))
      (Lawful m₀) := by
  unfold sendAndBackup
  refine Triple.bind (ssdsSendFile_gated hpeer f hr) ?_
  rintro status r' ⟨hquiet, hm, hsubset, hack⟩
  by_cases hok : status = .ok
  · rw [if_pos hok]
    unfold record
    refine Triple.modify_bind (Triple.modify_bind (Triple.pure ?_))
    have hcopied : Recorded m₀ { r' with trace := r'.trace ++ [.copied f] } :=
      hquiet.recorded.records (by simp) fun g hg => by cases hg; exact hack hok
    refine ⟨⟨hcopied.copy (by simp) _, hquiet.silent⟩,
      List.Subset.trans hsubset (List.subset_append_left _ _), ?_, ?_⟩
    · intro g hg
      rw [← hm]
      exact Function.update_of_ne hg _ _
    · intro _
      exact List.mem_append_left _ (hack hok)
  · rw [if_neg hok]
    exact Triple.pure ⟨hquiet, hsubset, fun g _ => by rw [hm], fun h => absurd h hok⟩

/-- What a part of the check does about one file. -/
def Deals (m₀ : Machine) (f : UploadFile) (r : ClientRun (σ × List WireEvent)) (o : Option Errors)
    (r' : ClientRun (σ × List WireEvent)) : Prop :=
  Quiet m₀ r' ∧ r.trace ⊆ r'.trace ∧ (∀ g, g ≠ f → r'.machine.backup g = r.machine.backup g) ∧
    (o = none → Unchanged m₀ f ∨ .acknowledged f ∈ r'.trace)

/-- An upload that went wrong ends the run. -/
theorem sendFirst_gated (hpeer : peer.SpeaksJson) (f : UploadFile)
    {r : ClientRun (σ × List WireEvent)} (hr : Quiet m₀ r) :
    Triple (· = r) (sendFirst peer.logged env f) (Deals m₀ f r) (Lawful m₀) := by
  unfold sendFirst
  refine Triple.bind (sendAndBackup_gated hpeer f hr) ?_
  rintro status r' ⟨hquiet, hsubset, hother, hack⟩
  exact Triple.pure ⟨hquiet, hsubset, hother, fun ho => Or.inr (hack (eq_ok_of_none ho))⟩

/-- **A known client skips a file only if it looks like its backup.** -/
theorem sendChanged_gated (hpeer : peer.SpeaksJson) (f : UploadFile) (hid : m₀.id ≠ none)
    {r : ClientRun (σ × List WireEvent)} (hr : Quiet m₀ r)
    (hback : r.machine.backup f = m₀.backup f) :
    Triple (· = r) (sendChanged peer.logged env f) (Deals m₀ f r) (Lawful m₀) := by
  have hr' : ∀ stdin, Quiet m₀ { r with stdin } :=
    fun _ => ⟨hr.recorded.logs rfl rfl (List.append_nil _).symm, hr.silent⟩
  refine sendChanged_rule (fun hc => ?_) hr.lawful
    (fun stdin => ⟨hr' stdin, List.Subset.refl _, fun _ _ => rfl, by intro h; cases h⟩)
    fun stdin => sendFirst_gated hpeer f (hr' stdin)
  rw [hr.recorded.original, hback] at hc
  exact ⟨hr, List.Subset.refl _, fun _ _ => rfl, fun _ => Or.inl ⟨hid, hc⟩⟩

/-- **The check of the id**: a run that goes on has dealt with both files. -/
theorem checkId_gated (hpeer : peer.SpeaksJson) {r : ClientRun (σ × List WireEvent)}
    (hr : Quiet m₀ r) (hm : r.machine = m₀) :
    Triple (· = r) (checkId peer.logged env)
      (fun o r' => Quiet m₀ r' ∧
        (o = none → ∀ f, Unchanged m₀ f ∨ .acknowledged f ∈ r'.trace))
      (Lawful m₀) := by
  unfold checkId
  refine Triple.get_bind ?_
  have hsend : ∀ f {t : ClientRun (σ × List WireEvent)}, Quiet m₀ t →
      t.machine.backup f = m₀.backup f →
      Triple (· = t) ((if r.machine.id = none then sendFirst peer.logged env
        else sendChanged peer.logged env) f) (Deals m₀ f t) (Lawful m₀) := by
    intro f t ht hback
    by_cases hnone : r.machine.id = none
    · rw [if_pos hnone]
      exact sendFirst_gated hpeer f ht
    · rw [if_neg hnone]
      rw [hm] at hnone
      exact sendChanged_gated hpeer f hnone ht hback
  refine Triple.bind (hsend .solv hr (by rw [hm])) ?_
  rintro o r₁ ⟨hquiet, -, hother, hsolv⟩
  cases o with
  | some status => exact Triple.pure ⟨hquiet, by intro h; cases h⟩
  | none =>
    -- the backup of the second file is still the one the run started with
    have hback : r₁.machine.backup .yum = m₀.backup .yum := by
      rw [hother .yum (by decide), hm]
    refine (hsend .yum hquiet hback).weaken ?_ fun _ h => h
    rintro o r₂ ⟨hquiet₂, hsubset, -, hyum⟩
    refine ⟨hquiet₂, fun ho f => ?_⟩
    cases f with
    | solv => exact (hsolv rfl).imp_right fun hack => hsubset hack
    | yum => exact hyum ho

/-- After the request. -/
theorem Asked.receives {r : ClientRun (σ × List WireEvent)} (hr : Recorded m₀ r)
    (hasked : Asked m₀ r.conn.2) {c : σ × List WireEvent} {log : List WireEvent}
    (hsilent : Silent log) (hc : c.2 = r.conn.2 ++ log) (n : ℕ) :
    Recorded m₀ { r with conn := c, received := n } ∧ Asked m₀ c.2 := by
  refine ⟨hr.logs rfl rfl hc, ?_⟩
  obtain ⟨pre, msg, post, hlog, hpre, hpost, hdealt⟩ := hasked
  refine ⟨pre, msg, post ++ log, ?_, hpre, hpost.append hsilent, hdealt⟩
  rw [hc, hlog, List.append_assoc, List.cons_append]

/-- **A receive after the request.** -/
theorem receive_gated {r : ClientRun (σ × List WireEvent)} (hr : Recorded m₀ r)
    (hasked : Asked m₀ r.conn.2) :
    Triple (· = r) (receive peer.logged env)
      (fun _ r' => Recorded m₀ r' ∧ Asked m₀ r'.conn.2) (Lawful m₀) := by
  refine (receive_triple r).weaken ?_ ?_
  · rintro p r' ⟨c, hrecv, rfl⟩
    exact Asked.receives hr hasked (silent_received _) ((logged_recv _).1 _ _ hrecv).2 _
  · rintro r' ⟨h, c, hrecv, rfl⟩
    have hlog : c.2 = r.conn.2 ++ [] := ((logged_recv _).2 _ _ hrecv).trans (List.append_nil _).symm
    exact (Asked.receives hr hasked (by simp [Silent]) hlog _).imp_right Or.inr

/-- **A request is written** after both files were dealt with. -/
theorem ssdsSendRepo_gated {action : Code} {r : ClientRun (σ × List WireEvent)} (hr : Quiet m₀ r)
    (hdealt : ∀ f, Unchanged m₀ f ∨ .acknowledged f ∈ r.trace) :
    Triple (· = r) (ssdsSendRepo peer.logged env action)
      (fun status r' => Lawful m₀ r' ∧ (status = .ok → Asked m₀ r'.conn.2)) (Lawful m₀) := by
  unfold ssdsSendRepo
  cases env.repos with
  | none => exact Triple.pure ⟨hr.lawful, by intro h; cases h⟩
  | some repos =>
    unfold lift
    refine Triple.mk_bind ?_ fun _ _ => hr.lawful
    intro json _
    unfold record
    have hrequest : Recorded m₀ { r with trace := r.trace ++ [.request action] } :=
      hr.recorded.records (by simp) (by simp)
    have hasked : Asked m₀ (r.conn.2 ++ [.sent (ssdsJsCrToString json)]) := by
      refine ⟨r.conn.2, ssdsJsCrToString json, [], rfl, hr.silent, by simp [Silent], ?_⟩
      exact fun f => (hdealt f).imp_right (hr.recorded.acknowledged f)
    refine Triple.modify_bind (Triple.modify_bind (Triple.pure ⟨⟨?_, Or.inr hasked⟩, fun _ => hasked⟩))
    exact hrequest.logs rfl rfl rfl

/-- **A request** is made once. -/
theorem requestCommand_gated {action : Code} {r : ClientRun (σ × List WireEvent)}
    (hr : Quiet m₀ r) (hdealt : ∀ f, Unchanged m₀ f ∨ .acknowledged f ∈ r.trace) :
    Triple (· = r) (requestCommand peer.logged env action) (fun _ r' => Lawful m₀ r')
      (Lawful m₀) := by
  unfold requestCommand
  refine Triple.bind (ssdsSendRepo_gated hr hdealt) ?_
  rintro status r₁ ⟨hlawful, hasked⟩
  by_cases hok : status = .ok
  · simp only [hok, ne_eq, not_true_eq_false, if_false]
    -- both receives leave the request the only one
    refine Triple.bind (receive_gated hlawful.1 (hasked hok)) ?_
    rintro ⟨fresh, d⟩ r₂ ⟨hrec₂, hasked₂⟩
    unfold lift
    refine Triple.mk_bind ?_ fun _ _ => ⟨hrec₂, Or.inr hasked₂⟩
    rintro _ -
    refine Triple.bind (receive_gated hrec₂ hasked₂) ?_
    rintro ⟨fresh', d'⟩ r₃ ⟨hrec₃, hasked₃⟩
    refine Triple.get_bind ?_
    refine Triple.mk_bind ?_ fun _ _ => ⟨hrec₃, Or.inr hasked₃⟩
    rintro a -
    refine Triple.modify_bind (Triple.pure ⟨?_, Or.inr hasked₃⟩)
    exact hrec₃.logs rfl rfl (List.append_nil _).symm
  · simp only [ne_eq, hok, not_false_eq_true, if_true]
    exact Triple.pure hlawful

/-- **A whole run.** -/
theorem clientMain_gated (hpeer : peer.SpeaksJson) {r : ClientRun (σ × List WireEvent)}
    (hr : Quiet m₀ r) (hm : r.machine = m₀) :
    Triple (· = r) (clientMain peer.logged env) (fun _ r' => Lawful m₀ r') (Lawful m₀) := by
  unfold clientMain
  refine Triple.bind (checkId_gated hpeer hr hm) ?_
  rintro o r' ⟨hquiet, hdealt⟩
  cases o with
  | some status => exact Triple.pure hquiet.lawful
  | none =>
    cases ha : env.effective.action with
    | none => exact Triple.pure hquiet.lawful
    | some action => exact requestCommand_gated hquiet (hdealt rfl)

/-- **Uploads gate requests, and acknowledgements gate backups**: in every run of the client,
whatever its machine, its user and the other side do, and wherever it ends. -/
theorem uploads_gate_requests (hpeer : peer.SpeaksJson) (env : ClientEnv) (m : Machine)
    (stdin : List Char) (s : σ) :
    Gated m ((clientMain peer.logged env).run.run
      { conn := (s, []), machine := m, stdin, received := 0, trace := [] }).2 := by
  have hquiet : Quiet m (⟨(s, []), m, stdin, 0, [], none⟩ : ClientRun (σ × List WireEvent)) :=
    ⟨⟨rfl, by simp, by simp, by simp⟩, by simp [Silent]⟩
  have hmain : Triple (· = _) (clientMain peer.logged env) (fun _ r' => Lawful m r') (Lawful m) :=
    clientMain_gated hpeer hquiet rfl
  have h := hmain _ rfl
  cases hrun : (clientMain peer.logged env).run.run ⟨(s, []), m, stdin, 0, [], none⟩ with
  | mk r r' =>
    rw [hrun] at h
    cases r with
    | ok a => exact Lawful.gated h
    | error e => exact Lawful.gated h

/-- A server that acknowledges everything. -/
def yesPeer : Peer Unit where
  write _ s := s
  writeData _ s := s
  recv s := (.ok (.document (some (.obj [("code", .int Code.answerOk.num)]))), s)

/-- A new client that asks for one package. -/
def newClient : ClientEnv where
  command := .install
  pkgs := ["a"]
  repos := some []
  fresh _ := .ofRoot none
  copy _ := ⟨true, fun _ => true⟩
  lr := ⟨fun _ _ => none, fun _ _ => none, fun _ => true⟩
  rpm := ⟨fun _ => ⟨true, 0, 0⟩, fun _ => [], 0⟩

/-- The start of its run: one file is empty, neither has a backup. -/
def newRun : ClientRun (Unit × List WireEvent) where
  conn := ((), [])
  machine := ⟨none, fun f => some (if f = .solv then [1] else []), fun _ => none⟩
  stdin := []
  received := 0
  trace := []

/-- It uploads both files, copies them and asks. -/
theorem uploads_gate_requests_new :
    Gated newRun.machine ((clientMain yesPeer.logged newClient).run.run newRun).2 ∧
      ((clientMain yesPeer.logged newClient).run.run newRun).2.trace =
        [.upload .solv, .acknowledged .solv, .copied .solv,
          .upload .yum, .acknowledged .yum, .copied .yum, .request .getInstall] := by
  refine ⟨uploads_gate_requests ?_ newClient newRun.machine [] (), ?_⟩
  · intro s d hd
    cases hd
    exact ⟨_, rfl⟩
  · rfl

end Rds
