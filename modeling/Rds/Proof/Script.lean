import Mathlib.Data.List.ModifyLast
import Rds.Lib.Replay
import Rds.Proof.Gate

/-!
# The client, reply by reply

A run of the client on a connection that holds the replies it will get. Where they end, it
waits; with one reply more it goes on from there.

* `clientMain_resumes`: one reply more.
* `clientMain_exchanges`: which receives belong to which message, in every run.
-/

namespace Rds

open Invariant Replay

/-! ## The connection -/

/-- A message and the data behind it. -/
abbrev Packet := Json × List Byte

/-- A connection that holds the replies a run will get. -/
structure Script where
  wrote : List Packet
  replies : List Delivery
  /-- For each receive, how many messages had been written. -/
  receives : List ℕ
  waiting : Bool

/-- The client's side of it. -/
def Script.peer : Peer Script where
  write msg s := { s with wrote := s.wrote ++ [(msg, [])] }
  writeData bs s := { s with wrote := s.wrote.modifyLast fun p => (p.1, p.2 ++ bs) }
  recv s :=
    let s := { s with receives := s.receives ++ [s.wrote.length] }
    match s.replies with
    | d :: replies => (.ok d, { s with replies })
    | [] => (.error .blocked, { s with waiting := true })

/-- What one run of the client is given, but for the replies. -/
structure ClientStart where
  env : ClientEnv
  machine : Machine
  stdin : List Char

/-- The client after some replies: what it returned or halted with, and its state. -/
def ClientStart.after (c : ClientStart) (got : List Delivery) :
    Except Halt ℤ × ClientRun Script :=
  (clientMain Script.peer c.env).run.run
    { conn := { wrote := [], replies := got, receives := [], waiting := false }
      machine := c.machine, stdin := c.stdin, received := 0, trace := [] }

/-! ## One reply more -/

/-- The replies and the messages of a run. -/
def scriptTape : Tape (ClientRun Script) Delivery Packet where
  inputs r := r.conn.replies
  outputs r := r.conn.wrote
  waiting r := r.conn.waiting = true
  more d r := { r with conn := { r.conn with replies := r.conn.replies ++ [d] } }

theorem scriptTape_lawful : scriptTape.Lawful := ⟨fun _ _ => Iff.rfl⟩

variable {env : ClientEnv}

/-- **A receive resumes.** -/
theorem receive_resumes : Resumes scriptTape (receive Script.peer env) := by
  intro r hr
  obtain ⟨⟨wrote, replies, receives, waiting⟩, machine, stdin, received, trace⟩ := r
  cases replies with
  | cons d replies =>
    refine ⟨List.prefix_rfl, List.suffix_cons d replies, fun h => absurd h hr, fun i _ => rfl, ?_⟩
    exact fun i h => absurd h hr
  | nil =>
    refine ⟨List.prefix_rfl, List.suffix_rfl, fun _ => ⟨.blocked, rfl⟩, ?_, ?_⟩
    · intro i h
      exact absurd rfl h
    · intro i _
      exact ⟨rfl, List.prefix_rfl⟩

/-- The writes of an upload. -/
theorem writeFile_script (f : UploadFile) (file : List Byte) (s : Script) :
    writeFile Script.peer f file s =
      { s with wrote := s.wrote ++ [(headerDoc f file.length, file)] } := by
  have hfold : ∀ (writes : List (List Byte)) (w : List Packet) (m : Json) (bs : List Byte),
      s.wrote = w → writes.foldl (fun conn data => Script.peer.writeData data conn)
        { s with wrote := w ++ [(m, bs)] } =
          { s with wrote := w ++ [(m, bs ++ writes.flatten)] } := by
    intro writes w m bs hw
    induction writes generalizing bs with
    | nil => simp
    | cons x writes ih =>
      rw [List.foldl_cons, List.flatten_cons, ← List.append_assoc, ← ih]
      simp only [Script.peer, List.modifyLast_concat]
  unfold writeFile
  have h := hfold (sendFileLoop file) s.wrote (headerDoc f file.length) [] rfl
  rw [sendFileLoop_flatten, List.nil_append] at h
  exact h

/-- Going on the record resumes. -/
theorem record_resumes (e : ClientEvent) : Resumes scriptTape (record e : ClientM Script Unit) :=
  Resumes.of_modify (fun _ => List.prefix_rfl) (fun _ => rfl) (fun _ => Iff.rfl) (fun _ _ => rfl)

theorem lift_resumes {α : Type} (x : Except Halt α) :
    Resumes scriptTape (lift x : ClientM Script α) :=
  Resumes.result x

theorem ssdsSendFile_resumes (f : UploadFile) :
    Resumes scriptTape (ssdsSendFile Script.peer env f) := by
  unfold ssdsSendFile
  refine Resumes.get_bind (fun r => ?_) fun _ _ => rfl
  cases r.machine.original f with
  | none => exact Resumes.pure _
  | some file =>
    refine Resumes.bind scriptTape_lawful (record_resumes _) fun _ => ?_
    refine Resumes.bind scriptTape_lawful (Resumes.of_modify ?_ ?_ ?_ ?_) fun _ => ?_
    · intro s
      simp only [scriptTape, writeFile_script]
      exact List.prefix_append _ _
    · intro s
      simp only [scriptTape, writeFile_script]
    · intro s
      simp only [scriptTape, writeFile_script]
    · intro d s
      simp only [scriptTape, writeFile_script]
    refine Resumes.bind scriptTape_lawful receive_resumes fun p => ?_
    refine Resumes.bind scriptTape_lawful (lift_resumes _) fun status => ?_
    by_cases hok : status = .ok
    · simp only [if_pos hok]
      exact Resumes.bind scriptTape_lawful (record_resumes _) fun _ => Resumes.pure _
    · simp only [if_neg hok]
      exact Resumes.pure _

theorem sendAndBackup_resumes (f : UploadFile) :
    Resumes scriptTape (sendAndBackup Script.peer env f) := by
  unfold sendAndBackup
  refine Resumes.bind scriptTape_lawful (ssdsSendFile_resumes f) fun status => ?_
  by_cases hok : status = .ok
  · simp only [if_pos hok]
    refine Resumes.bind scriptTape_lawful (record_resumes _) fun _ => ?_
    refine Resumes.bind scriptTape_lawful ?_ fun _ => Resumes.pure _
    exact Resumes.of_modify (fun _ => List.prefix_rfl) (fun _ => rfl) (fun _ => Iff.rfl)
      fun _ _ => rfl
  · simp only [if_neg hok]
    exact Resumes.pure _

theorem ask_resumes : Resumes scriptTape (ask : ClientM Script Answer) := by
  unfold ask
  refine Resumes.get_bind (fun r => ?_) fun _ _ => rfl
  refine Resumes.bind scriptTape_lawful (lift_resumes _) fun p => ?_
  refine Resumes.bind scriptTape_lawful ?_ fun _ => Resumes.pure _
  exact Resumes.of_modify (fun _ => List.prefix_rfl) (fun _ => rfl) (fun _ => Iff.rfl)
    fun _ _ => rfl

theorem sendFirst_resumes (f : UploadFile) : Resumes scriptTape (sendFirst Script.peer env f) :=
  Resumes.bind scriptTape_lawful (sendAndBackup_resumes f) fun _ => Resumes.pure _

theorem sendChanged_resumes (f : UploadFile) :
    Resumes scriptTape (sendChanged Script.peer env f) := by
  unfold sendChanged
  refine Resumes.get_bind (fun r => ?_) fun _ _ => rfl
  by_cases hc : compareFiles (r.machine.original f) (r.machine.backup f) = .ok
  · simp only [if_pos hc]
    exact Resumes.pure _
  · simp only [if_neg hc]
    refine Resumes.bind scriptTape_lawful ask_resumes fun ans => ?_
    by_cases hans : ans = .no
    · rw [if_pos hans]
      exact Resumes.pure _
    · rw [if_neg hans]
      exact sendFirst_resumes f

theorem checkId_resumes : Resumes scriptTape (checkId Script.peer env) := by
  unfold checkId
  refine Resumes.get_bind (fun r => ?_) fun _ _ => rfl
  have hsend : ∀ f, Resumes scriptTape ((if r.machine.id = none then sendFirst Script.peer env
      else sendChanged Script.peer env) f) := by
    intro f
    by_cases hnone : r.machine.id = none
    · rw [if_pos hnone]
      exact sendFirst_resumes f
    · rw [if_neg hnone]
      exact sendChanged_resumes f
  refine Resumes.bind scriptTape_lawful (hsend .solv) fun o => ?_
  cases o with
  | some status => exact Resumes.pure _
  | none => exact hsend .yum

theorem requestCommand_resumes (action : Code) :
    Resumes scriptTape (requestCommand Script.peer env action) := by
  unfold requestCommand ssdsSendRepo
  refine Resumes.bind scriptTape_lawful ?_ fun status => ?_
  · cases env.repos with
    | none => exact Resumes.pure _
    | some repos =>
      refine Resumes.bind scriptTape_lawful (lift_resumes _) fun json => ?_
      refine Resumes.bind scriptTape_lawful (record_resumes _) fun _ => ?_
      refine Resumes.bind scriptTape_lawful ?_ fun _ => Resumes.pure _
      exact Resumes.of_modify (fun _ => List.prefix_append _ _) (fun _ => rfl) (fun _ => Iff.rfl)
        fun _ _ => rfl
  · by_cases hok : status = .ok
    · simp only [hok, ne_eq, not_true_eq_false, if_false]
      refine Resumes.bind scriptTape_lawful receive_resumes fun p => ?_
      refine Resumes.bind scriptTape_lawful (lift_resumes _) fun _ => ?_
      refine Resumes.bind scriptTape_lawful receive_resumes fun q => ?_
      refine Resumes.get_bind (fun r => ?_) fun _ _ => rfl
      refine Resumes.bind scriptTape_lawful (lift_resumes _) fun a => ?_
      refine Resumes.bind scriptTape_lawful ?_ fun _ => Resumes.pure _
      exact Resumes.of_modify (fun _ => List.prefix_rfl) (fun _ => rfl) (fun _ => Iff.rfl)
        fun _ _ => rfl
    · simp only [ne_eq, hok, not_false_eq_true, if_true]
      exact Resumes.pure _

/-- **A whole run resumes.** -/
theorem clientMain_resumes : Resumes scriptTape (clientMain Script.peer env) := by
  unfold clientMain
  refine Resumes.bind scriptTape_lawful checkId_resumes fun o => ?_
  cases o with
  | some status => exact Resumes.pure _
  | none =>
    cases env.effective.action with
    | none => exact Resumes.pure _
    | some action => exact requestCommand_resumes action

/-- **One reply more**: what was written stays, and the reply is received. -/
theorem ClientStart.after_more (c : ClientStart) (got : List Delivery) (d : Delivery)
    (hw : (c.after got).2.conn.waiting = true) :
    (c.after got).2.conn.wrote <+: (c.after (got ++ [d])).2.conn.wrote ∧
      (c.after (got ++ [d])).2.conn.replies = [] := by
  have h := (@clientMain_resumes c.env ⟨⟨[], got, [], false⟩, c.machine, c.stdin, 0, [], none⟩
    (by simp [scriptTape])).goesOn d hw
  exact ⟨h.2, h.1⟩

/-- A new client that can read its file writes the header and the file, and waits. -/
theorem ClientStart.after_nil {c : ClientStart} {file : List Byte} (hid : c.machine.id = none)
    (hf : c.machine.original .solv = some file) :
    (c.after []).2.conn = ⟨[(headerDoc .solv file.length, file)], [], [1], true⟩ := by
  obtain ⟨env, ⟨id, original, backup⟩, stdin⟩ := c
  have hid' : id = none := hid
  have hf' : original .solv = some file := hf
  have hsend : (ssdsSendFile Script.peer env .solv).run.run
      ⟨⟨[], [], [], false⟩, ⟨id, original, backup⟩, stdin, 0, [], none⟩ = (.error .blocked,
        ⟨⟨[(headerDoc .solv file.length, file)], [], [1], true⟩, ⟨id, original, backup⟩, stdin, 1,
          [.upload .solv], none⟩) := by
    unfold ssdsSendFile
    simp only [writeFile_script]
    rw [run_get_bind]
    simp only [hf']
    rfl
  have hmain : (clientMain Script.peer env).run.run
      ⟨⟨[], [], [], false⟩, ⟨id, original, backup⟩, stdin, 0, [], none⟩ = (.error .blocked,
        ⟨⟨[(headerDoc .solv file.length, file)], [], [1], true⟩, ⟨id, original, backup⟩, stdin, 1,
          [.upload .solv], none⟩) := by
    unfold clientMain checkId
    subst hid'
    refine run_bind_error ?_
    have hfirst : (sendFirst Script.peer env .solv).run.run
      ⟨⟨[], [], [], false⟩, ⟨none, original, backup⟩, stdin, 0, [], none⟩ = _ :=
      run_bind_error (run_bind_error hsend)
    exact (run_get_bind _ _).trans (run_bind_error hfirst)
  unfold ClientStart.after
  rw [hmain]

/-! ## Which receive is for which message -/

/-- How many replies a message is owed: two for a request, else one. -/
def owed (p : Packet) : ℕ := if (WireEvent.sent p.1).isRequest then 2 else 1

/-- For each reply that is owed, how many messages there are up to the one it answers. -/
def labels (wrote : List Packet) : List ℕ :=
  wrote.zipIdx.flatMap fun p => List.replicate (owed p.1) (p.2 + 1)

/-- What the client writes: an upload or a request. -/
inductive Exchange : Packet → Prop
  | upload (f : UploadFile) (file : List Byte) : Exchange (headerDoc f file.length, file)
  | request {msg : Json} {op : Code} : op ∈ getCodes → replyCode msg = .ok op.num →
      Exchange (msg, [])

theorem owed_upload (f : UploadFile) (file : List Byte) :
    owed (headerDoc f file.length, file) = 1 := by
  have h := silent_uploadWrites f file (.sent (headerDoc f file.length)) List.mem_cons_self
  unfold owed
  rw [if_neg]
  simp only [h, Bool.false_eq_true, not_false_eq_true]

theorem owed_request {msg : Json} {op : Code} (hop : op ∈ getCodes) (h : replyCode msg = .ok op.num)
    (data : List Byte) : owed (msg, data) = 2 := by
  have hmem : op.num ∈ getCodes.map Code.num := List.mem_map_of_mem hop
  unfold owed
  rw [if_pos]
  simp only [WireEvent.isRequest, h, decide_eq_true_eq]
  exact hmem

theorem owed_pos (p : Packet) : 0 < owed p := by
  unfold owed
  split
  · exact Nat.succ_pos 1
  · exact Nat.succ_pos 0

theorem labels_concat (w : List Packet) (p : Packet) :
    labels (w ++ [p]) = labels w ++ List.replicate (owed p) (w.length + 1) := by
  unfold labels
  rw [List.zipIdx_append, List.flatMap_append]
  simp

theorem labels_mono {w w' : List Packet} (h : w <+: w') : labels w <+: labels w' := by
  obtain ⟨more, rfl⟩ := h
  unfold labels
  rw [List.zipIdx_append, List.flatMap_append]
  exact List.prefix_append _ _

theorem labels_take_succ {w : List Packet} {k : ℕ} (h : k < w.length) :
    labels (w.take (k + 1)) = labels (w.take k) ++ List.replicate (owed w[k]) (k + 1) := by
  rw [List.take_succ_eq_append_getElem h, labels_concat, List.length_take_of_le h.le]

/-- A message more is a reply more. -/
theorem labels_take_lt {w : List Packet} {k : ℕ} (h : k < w.length) :
    (labels (w.take k)).length < (labels w).length := by
  have hle := (labels_mono (List.take_prefix (k + 1) w)).length_le
  have howed := owed_pos w[k]
  rw [labels_take_succ h, List.length_append, List.length_replicate] at hle
  omega

variable {N : ℕ} {s : Script}

/-- **Between two messages**: as many replies were received as were owed. `N` is the number of
replies there ever are. -/
structure Settled (N : ℕ) (s : Script) : Prop where
  receives : s.receives = labels s.wrote
  exchanges : ∀ p ∈ s.wrote, Exchange p
  count : s.receives.length + s.replies.length = N
  waiting : s.waiting = false

/-- **After a message** `p`, with `q` of its replies received. -/
structure Amid (N : ℕ) (w : List Packet) (p : Packet) (q : ℕ) (s : Script) : Prop where
  wrote : s.wrote = w ++ [p]
  receives : s.receives = labels w ++ List.replicate q (w.length + 1)
  exchanges : ∀ p ∈ s.wrote, Exchange p
  count : s.receives.length + s.replies.length = N
  waiting : s.waiting = false

/-- **Wherever a run stops**: the receives are a beginning of what is owed, and what is owed for
the earlier messages was received. -/
structure Stopped (N : ℕ) (s : Script) : Prop where
  receives : s.receives <+: labels s.wrote
  exchanges : ∀ p ∈ s.wrote, Exchange p
  count : s.receives.length + s.replies.length = N + s.waiting.toNat
  earlier : (labels s.wrote.dropLast).length + s.waiting.toNat ≤ s.receives.length
  drained : s.waiting = true → s.replies = []

theorem Settled.amid (h : Settled N s) {p : Packet} (hp : Exchange p) :
    Amid N s.wrote p 0 { s with wrote := s.wrote ++ [p] } := by
  refine ⟨rfl, ?_, ?_, h.count, h.waiting⟩
  · rw [List.replicate_zero, List.append_nil]
    exact h.receives
  · intro p' hp'
    rcases List.mem_append.1 hp' with hp' | hp'
    · exact h.exchanges p' hp'
    · rw [List.mem_singleton.1 hp']
      exact hp

theorem Amid.settled {w : List Packet} {p : Packet} {q : ℕ} (h : Amid N w p q s)
    (hq : q = owed p) : Settled N s := by
  refine ⟨?_, h.exchanges, h.count, h.waiting⟩
  rw [h.wrote, labels_concat, ← hq]
  exact h.receives

theorem Amid.stopped {w : List Packet} {p : Packet} {q : ℕ} (h : Amid N w p q s)
    (hq : q ≤ owed p) : Stopped N s := by
  refine ⟨?_, h.exchanges, ?_, ?_, ?_⟩
  · rw [h.receives, h.wrote, labels_concat]
    refine (List.prefix_append_right_inj _).2 ?_
    exact List.prefix_replicate_iff.2 ⟨by simpa using hq, by simp⟩
  · rw [h.waiting]
    exact h.count
  · rw [h.waiting, h.wrote, h.receives, List.dropLast_concat, List.length_append]
    exact Nat.le_add_right _ _
  · intro hw
    rw [h.waiting] at hw
    cases hw

theorem Settled.stopped (h : Settled N s) : Stopped N s := by
  refine ⟨h.receives ▸ List.prefix_rfl, h.exchanges, ?_, ?_, ?_⟩
  · rw [h.waiting]
    exact h.count
  · rw [h.waiting, h.receives]
    exact (labels_mono (List.dropLast_prefix _)).length_le
  · intro hw
    rw [h.waiting] at hw
    cases hw

theorem script_recv_cons {d : Delivery} {replies : List Delivery} (h : s.replies = d :: replies) :
    Script.peer.recv s =
      (.ok d, { s with replies, receives := s.receives ++ [s.wrote.length] }) := by
  obtain ⟨wrote, _, receives, waiting⟩ := s
  subst h
  rfl

theorem script_recv_nil (h : s.replies = []) :
    Script.peer.recv s =
      (.error .blocked,
        { s with receives := s.receives ++ [s.wrote.length], waiting := true }) := by
  obtain ⟨wrote, _, receives, waiting⟩ := s
  subst h
  rfl

/-- **A receive** that is owed. -/
theorem receive_amid {w : List Packet} {p : Packet} {q : ℕ} {r : ClientRun Script}
    (h : Amid N w p q r.conn) (hq : q < owed p) :
    Triple (· = r) (receive Script.peer env)
      (fun _ r' => Amid N w p (q + 1) r'.conn) (fun r' => Stopped N r'.conn) := by
  have hlen : r.conn.wrote.length = w.length + 1 := by rw [h.wrote]; simp
  have hreceives : r.conn.receives ++ [r.conn.wrote.length] =
      labels w ++ List.replicate (q + 1) (w.length + 1) := by
    rw [h.receives, hlen, List.append_assoc, ← List.replicate_succ']
  refine (receive_triple r).weaken ?_ ?_
  · rintro p' r' ⟨c, hrecv, rfl⟩
    cases hreplies : r.conn.replies with
    | nil =>
      rw [script_recv_nil hreplies] at hrecv
      cases hrecv
    | cons d replies =>
      have hcount := h.count
      rw [hreplies] at hcount
      rw [script_recv_cons hreplies] at hrecv
      cases hrecv
      refine ⟨h.wrote, hreceives, h.exchanges, ?_, h.waiting⟩
      simp only [List.length_append, List.length_cons, List.length_nil] at hcount ⊢
      omega
  · rintro r' ⟨e, c, hrecv, rfl⟩
    cases hreplies : r.conn.replies with
    | cons d replies =>
      rw [script_recv_cons hreplies] at hrecv
      cases hrecv
    | nil =>
      have hcount := h.count
      rw [hreplies] at hcount
      rw [script_recv_nil hreplies] at hrecv
      cases hrecv
      -- the receive it waits in is owed, too
      show Stopped N { r.conn with receives := _, waiting := true }
      rw [hreceives]
      refine ⟨?_, h.exchanges, ?_, ?_, fun _ => hreplies⟩
      · simp only [h.wrote, labels_concat]
        refine (List.prefix_append_right_inj _).2 ?_
        exact List.prefix_replicate_iff.2 ⟨by rw [List.length_replicate]; omega, by simp⟩
      · rw [← hreceives, List.length_append, Bool.toNat_true, hreplies]
        simp only [List.length_cons, List.length_nil] at hcount ⊢
        omega
      · simp only [h.wrote, List.dropLast_concat, List.length_append, List.length_replicate,
          Bool.toNat_true]
        omega

/-- **An upload** is one exchange. -/
theorem ssdsSendFile_exchanges (f : UploadFile) {r : ClientRun Script} (h : Settled N r.conn) :
    Triple (· = r) (ssdsSendFile Script.peer env f) (fun _ r' => Settled N r'.conn)
      (fun r' => Stopped N r'.conn) := by
  unfold ssdsSendFile
  refine Triple.get_bind ?_
  cases r.machine.original f with
  | none => exact Triple.pure h
  | some file =>
    unfold record
    refine Triple.modify_bind (Triple.modify_bind ?_)
    have hamid : Amid N r.conn.wrote (headerDoc f file.length, file) 0
        (writeFile Script.peer f file r.conn) := by
      rw [writeFile_script]
      exact h.amid (.upload f file)
    have howed := owed_upload f file
    refine Triple.bind (receive_amid hamid (by omega)) ?_
    rintro ⟨fresh, d⟩ r' hr'
    have hsettled : Settled N r'.conn := hr'.settled (by omega)
    unfold lift
    refine Triple.mk_bind ?_ fun _ _ => hsettled.stopped
    intro status _
    by_cases hok : status = .ok
    · rw [if_pos hok]
      exact Triple.modify_bind (Triple.pure hsettled)
    · rw [if_neg hok]
      exact Triple.pure hsettled

theorem sendAndBackup_exchanges (f : UploadFile) {r : ClientRun Script} (h : Settled N r.conn) :
    Triple (· = r) (sendAndBackup Script.peer env f) (fun _ r' => Settled N r'.conn)
      (fun r' => Stopped N r'.conn) := by
  unfold sendAndBackup
  refine Triple.bind (ssdsSendFile_exchanges f h) ?_
  intro status r' hr'
  by_cases hok : status = .ok
  · rw [if_pos hok]
    unfold record
    exact Triple.modify_bind (Triple.modify_bind (Triple.pure hr'))
  · rw [if_neg hok]
    exact Triple.pure hr'

/-- What a client does about one file. -/
theorem send_exchanges (f : UploadFile) (known : Bool) {r : ClientRun Script}
    (h : Settled N r.conn) :
    Triple (· = r) ((if known then sendChanged Script.peer env else sendFirst Script.peer env) f)
      (fun _ r' => Settled N r'.conn) (fun r' => Stopped N r'.conn) := by
  have hfirst : ∀ {r : ClientRun Script}, Settled N r.conn →
      Triple (· = r) (sendFirst Script.peer env f) (fun _ r' => Settled N r'.conn)
        (fun r' => Stopped N r'.conn) := by
    intro r h
    unfold sendFirst
    exact Triple.bind (sendAndBackup_exchanges f h) fun _ _ hr' => Triple.pure hr'
  cases known with
  | false => exact hfirst h
  | true =>
    exact sendChanged_rule (fun _ => h) h.stopped (fun _ => h) fun _ => hfirst h

theorem checkId_exchanges {r : ClientRun Script} (h : Settled N r.conn) :
    Triple (· = r) (checkId Script.peer env) (fun _ r' => Settled N r'.conn)
      (fun r' => Stopped N r'.conn) := by
  unfold checkId
  refine Triple.get_bind ?_
  have hsend : ∀ f {t : ClientRun Script}, Settled N t.conn →
      Triple (· = t) ((if r.machine.id = none then sendFirst Script.peer env
        else sendChanged Script.peer env) f) (fun _ r' => Settled N r'.conn)
        (fun r' => Stopped N r'.conn) := by
    intro f t ht
    by_cases hnone : r.machine.id = none
    · rw [if_pos hnone]
      exact send_exchanges f false ht
    · rw [if_neg hnone]
      exact send_exchanges f true ht
  refine Triple.bind (hsend .solv h) ?_
  intro o r' hr'
  cases o with
  | some status => exact Triple.pure hr'
  | none => exact hsend .yum hr'

/-- **A request** is one exchange with two replies. -/
theorem requestCommand_exchanges {action : Code} (hop : action ∈ getCodes) {r : ClientRun Script}
    (h : Settled N r.conn) :
    Triple (· = r) (requestCommand Script.peer env action) (fun _ r' => Settled N r'.conn)
      (fun r' => Stopped N r'.conn) := by
  unfold requestCommand ssdsSendRepo
  cases env.repos with
  | none => exact Triple.pure h
  | some repos =>
    have hsent : Triple (· = r) (do
        let json ← lift (repoMessage repos env.pkgs action)
        record (.request action)
        modify fun r => { r with conn := Script.peer.write (ssdsJsCrToString json) r.conn }
        return Errors.ok)
        (fun status r' => status = .ok ∧ ∃ msg, replyCode msg = .ok action.num ∧
          Amid N r.conn.wrote (msg, []) 0 r'.conn) (fun r' => Stopped N r'.conn) := by
      unfold lift
      refine Triple.mk_bind ?_ fun _ _ => h.stopped
      intro json hjson
      unfold record
      have hcode := repoMessage_code hjson
      exact Triple.modify_bind (Triple.modify_bind (Triple.pure
        ⟨rfl, _, hcode, h.amid (.request hop hcode)⟩))
    refine Triple.bind hsent ?_
    rintro status r₁ ⟨rfl, msg, hcode, hamid⟩
    have howed : owed (msg, []) = 2 := owed_request hop hcode []
    simp only [ne_eq, not_true_eq_false, if_false]
    refine Triple.bind (receive_amid hamid (by omega)) ?_
    rintro ⟨fresh, d⟩ r₂ hamid₂
    unfold lift
    refine Triple.mk_bind ?_ fun _ _ => hamid₂.stopped (by omega)
    rintro _ -
    refine Triple.bind (receive_amid hamid₂ (by omega)) ?_
    rintro ⟨fresh', d'⟩ r₃ hamid₃
    have hsettled : Settled N r₃.conn := hamid₃.settled (by omega)
    refine Triple.get_bind ?_
    refine Triple.mk_bind ?_ fun _ _ => hsettled.stopped
    rintro a -
    exact Triple.modify_bind (Triple.pure hsettled)

/-- **Which receive is for which message**, in a whole run. -/
theorem clientMain_exchanges {r : ClientRun Script} (h : Settled N r.conn) :
    Triple (· = r) (clientMain Script.peer env) (fun _ r' => Settled N r'.conn)
      (fun r' => Stopped N r'.conn) := by
  unfold clientMain
  refine Triple.bind (checkId_exchanges h) ?_
  intro o r' hr'
  cases o with
  | some status => exact Triple.pure hr'
  | none =>
    cases ha : env.effective.action with
    | none => exact Triple.pure hr'
    | some action => exact requestCommand_exchanges (Command.action_mem ha) hr'

/-- **The client after some replies.** -/
theorem ClientStart.after_stopped (c : ClientStart) (got : List Delivery) :
    Stopped got.length (c.after got).2.conn ∧
      ∀ rc, (c.after got).1 = .ok rc → Settled got.length (c.after got).2.conn := by
  have hstart : Settled got.length (⟨[], got, [], false⟩ : Script) :=
    ⟨rfl, by simp, by simp, rfl⟩
  have h : Triple (· = _) (clientMain Script.peer c.env)
      (fun _ r' => Settled got.length r'.conn) (fun r' => Stopped got.length r'.conn) :=
    clientMain_exchanges (r := ⟨⟨[], got, [], false⟩, c.machine, c.stdin, 0, [], none⟩) hstart
  have hrun := h _ rfl
  unfold ClientStart.after
  cases hr : (clientMain Script.peer c.env).run.run
      ⟨⟨[], got, [], false⟩, c.machine, c.stdin, 0, [], none⟩ with
  | mk o r' =>
    rw [hr] at hrun
    cases o with
    | ok rc => exact ⟨Settled.stopped hrun, fun _ _ => hrun⟩
    | error e =>
      refine ⟨hrun, ?_⟩
      intro rc hrc
      cases hrc

end Rds
