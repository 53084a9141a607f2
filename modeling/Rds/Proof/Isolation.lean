import Rds.Lib.Invariant
import Rds.Proof.Solve
import Rds.Proof.Termination
import Rds.Spec.System

/-!
# Whose data a request is solved on

The server keeps one `@System.solv` for all its clients.

* `Link.recv_cases`: what one exchange can do; `Link.recv_upload` and `Link.recv_request` say what
  it does to that file.
* `clientMain_kept`: what a whole run of a client does, whatever it is and wherever it ends.
* `own_data`: requests are solved on the client's own file as long as nobody skips an upload
  unless the last one was its own.
-/

namespace Rds

open Invariant

variable {ch : Channel} {senv : Env} {fuel : ℕ}

/-- **Every message is delivered as it was written**, in both directions. -/
structure Channel.Reliable (ch : Channel) : Prop where
  up : ∀ k m, ch.up k m = .document (some m)
  down : ∀ k r, ch.down k r = .document (some r)

/-! ## One exchange -/

/-- The header of an upload. -/
def headerDoc (f : UploadFile) (n : ℕ) : Json := ssdsJsCrToString (sendFileHeader f n)

/-- An upload is no request. -/
theorem startsSolving_header (f : UploadFile) (n : ℕ) (fresh : SsdsJsonRead) :
    startsSolving (.document (some (headerDoc f n))) fresh = false := by
  unfold startsSolving
  rw [show (Delivery.document (some (headerDoc f n))).parse fresh =
    (1, .ofRoot (some (headerDoc f n))) from rfl, headerDoc, sendFileHeader_code]
  cases f <;> rfl

/-- A reply that an upload takes for its acknowledgement. -/
theorem sendFileReply_ok {fresh : SsdsJsonRead} {r : Json}
    (h : sendFileReply fresh (.document (some r)) = .ok .ok) :
    replyCode r = .ok Code.answerOk.num := by
  unfold sendFileReply at h
  obtain ⟨rc, hrc, h⟩ := bind_eq_ok.1 h
  have hcode : replyCode r = .ok rc := hrc
  rw [hcode]
  split at h
  · obtain ⟨msg, -, h⟩ := bind_eq_ok.1 h
    cases h
  · rename_i hne
    rw [not_not.1 hne]

/-- **What a receive can do** with a message the server has not read: the connection is
closed, or the server deals with it, on the data behind it, and does not return or answers. -/
theorem Link.recv_cases (hch : ch.Reliable) {l l' : Link} {m : Json} (hmsg : l.message = some m)
    (hreplies : l.replies = []) {d : Except Halt Delivery} (h : l.recv ch senv fuel = (d, l')) :
    l'.message = none ∧
      ((d = .ok (.document none) ∧ l'.replies = [] ∧ l'.server = l.server ∧ l'.solves = l.solves) ∨
      ∃ sv, (∀ f, sv.file f = l.server.file f) ∧ sv.sent = [] ∧ bytesOf sv.sock.reads <+: l.data ∧
        l'.solves = (if startsSolving (.document (some m)) (senv.fresh l.server.tick) then
          l.solves ++ [sv.solv] else l.solves) ∧
        ((∃ e, d = .error e ∧ l'.replies = [] ∧ l'.server = l.server) ∨
        ∃ st sv', serverSwitch senv fuel (.ofRoot (some m)) sv = .ok (st, sv') ∧ l'.server = sv' ∧
          ∀ r rs, sv'.sent = r :: rs → d = .ok (.document (some r)) ∧ l'.replies = rs)) := by
  unfold recv at h
  rw [hreplies, hmsg] at h
  simp only at h
  split at h
  · -- the server has closed the connection, and the client reads an empty text
    rename_i hend
    unfold reply at h
    simp only [hend, if_true] at h
    cases h
    exact ⟨rfl, Or.inl ⟨rfl, rfl, rfl, rfl⟩⟩
  · unfold serve at h
    simp only [hch.up] at h
    set sv : Server := { l.server with sock := ⟨ch.data l.served m l.data, false⟩, sent := [] }.tock
    have hfile : ∀ f, sv.file f = l.server.file f := by
      intro f
      cases f <;> rfl
    have hdelivery : serverDelivery senv fuel (.document (some m)) (senv.fresh l.server.tick) sv =
        serverSwitch senv fuel (.ofRoot (some m)) sv := rfl
    rw [hdelivery] at h
    cases hs : serverSwitch senv fuel (.ofRoot (some m)) sv with
    | error e =>
      rw [hs] at h
      cases h
      exact ⟨rfl, Or.inr ⟨sv, hfile, rfl, ch.data_prefix _ _ _, rfl, Or.inl ⟨e, rfl, rfl, rfl⟩⟩⟩
    | ok p =>
      obtain ⟨st, sv'⟩ := p
      rw [hs] at h
      unfold reply at h
      simp only [hch.down] at h
      cases hsent : sv'.sent with
      | nil =>
        have hnone : ∀ r rs, ([] : List Json) = r :: rs →
            d = .ok (.document (some r)) ∧ l'.replies = rs := by
          intro r rs hcons
          cases hcons
        simp only [hsent] at h
        split at h
        · cases h
          exact ⟨rfl, Or.inr ⟨sv, hfile, rfl, ch.data_prefix _ _ _, rfl,
            Or.inr ⟨st, sv', hs, rfl, by rw [hsent]; exact hnone⟩⟩⟩
        · cases h
          exact ⟨rfl, Or.inr ⟨sv, hfile, rfl, ch.data_prefix _ _ _, rfl,
            Or.inr ⟨st, sv', hs, rfl, by rw [hsent]; exact hnone⟩⟩⟩
      | cons r rs =>
        simp only [hsent] at h
        cases h
        refine ⟨rfl, Or.inr ⟨sv, hfile, rfl, ch.data_prefix _ _ _, rfl, Or.inr ⟨st, sv', hs, rfl, ?_⟩⟩⟩
        intro r' rs' hcons
        rw [hsent] at hcons
        cases hcons
        exact ⟨rfl, rfl⟩

/-- **An upload**: it starts no solving, leaves the other file alone, and if the client takes
it for acknowledged the server holds the file. -/
theorem Link.recv_upload (hch : ch.Reliable) {l l' : Link} {f : UploadFile} {file : List Byte}
    (hmsg : l.message = some (headerDoc f file.length)) (hdata : l.data = file)
    (hreplies : l.replies = []) {d : Except Halt Delivery}
    (h : l.recv ch senv fuel = (d, l')) :
    l'.replies = [] ∧ l'.solves = l.solves ∧
      (∀ g, g ≠ f → l'.server.file g = l.server.file g) ∧
      ∀ del fresh, d = .ok del → sendFileReply fresh del = .ok .ok → file.length < 2 ^ 31 →
        l'.server.file f = some file := by
  obtain ⟨-, hcases⟩ := Link.recv_cases hch hmsg hreplies h
  rcases hcases with ⟨hd, hreplies', hserver, hsolves⟩ |
    ⟨sv, hfile, hsent, hreads, hsolves, hcases⟩
  · refine ⟨hreplies', hsolves, fun g _ => by rw [hserver], ?_⟩
    -- an empty text is no acknowledgement
    intro del fresh hdel hok
    rw [hd] at hdel
    cases hdel
    cases hok
  rw [startsSolving_header] at hsolves
  rcases hcases with ⟨e, hd, hreplies', hserver⟩ | ⟨st, sv', hswitch, rfl, hreply⟩
  · refine ⟨hreplies', hsolves, fun g _ => by rw [hserver], ?_⟩
    intro del fresh hdel
    rw [hd] at hdel
    cases hdel
  · rw [headerDoc, serverSwitch_upload (sendFileHeader_code f file.length)] at hswitch
    obtain ⟨⟨r, hr⟩, hother⟩ := uploadBranch_frame hswitch
    rw [hsent, List.nil_append] at hr
    obtain ⟨hd, hreplies'⟩ := hreply r [] hr
    refine ⟨hreplies', hsolves, ?_, ?_⟩
    · intro g hg
      rw [uploadOf_file] at hother
      exact (hother g hg).trans (hfile g)
    · intro del fresh hdel hok hN
      rw [hd] at hdel
      cases hdel
      have hpre : [] ++ bytesOf sv.sock.reads <+: file := by rw [← hdata]; exact hreads
      rcases uploadBranch_exact hN (sendFileHeader_readBytes f hN) hpre hswitch with
        ⟨-, hstored, -⟩ | ⟨msg, hmsg⟩
      · exact hstored
      · rw [hr, hsent, List.nil_append] at hmsg
        have hcode := sendFileReply_ok hok
        rw [(List.cons.inj hmsg).1, replyCode_error] at hcode
        cases hcode

/-- **A request** is solved on what the server holds, and leaves it alone. -/
theorem Link.recv_request (hch : ch.Reliable) {l l' : Link} {op : Code} (hop : op ∈ getCodes)
    {m : Json} (hmsg : l.message = some m) (hcode : replyCode m = .ok op.num)
    (hreplies : l.replies = []) {d : Except Halt Delivery}
    (h : l.recv ch senv fuel = (d, l')) :
    l'.message = none ∧ l'.server.solv = l.server.solv ∧
      ∀ x ∈ l'.solves, x ∈ l.solves ∨ x = l.server.solv := by
  obtain ⟨hnone, hcases⟩ := Link.recv_cases hch hmsg hreplies h
  rcases hcases with ⟨-, -, hserver, hsolves⟩ | ⟨sv, hfile, -, -, hsolves, hcases⟩
  · refine ⟨hnone, by rw [hserver], ?_⟩
    intro x hx
    rw [hsolves] at hx
    exact Or.inl hx
  have hheld : sv.solv = l.server.solv := hfile .solv
  have hsolves' : ∀ x ∈ l'.solves, x ∈ l.solves ∨ x = l.server.solv := by
    intro x hx
    rw [hsolves] at hx
    split at hx
    · rcases List.mem_append.1 hx with hx | hx
      · exact Or.inl hx
      · rw [List.mem_singleton.1 hx]
        exact Or.inr hheld
    · exact Or.inl hx
  refine ⟨hnone, ?_, hsolves'⟩
  rcases hcases with ⟨e, -, -, hserver⟩ | ⟨st, sv', hswitch, rfl, -⟩
  · rw [hserver]
  · rw [serverSwitch_get hop hcode] at hswitch
    have hsolv : l'.server.solv = sv.solv := getBranch_file hswitch .solv
    rw [hsolv, hheld]

/-- Without a new message the server has nothing to do. -/
theorem Link.recv_idle {l l' : Link} (hmsg : l.message = none) {d : Except Halt Delivery}
    (h : l.recv ch senv fuel = (d, l')) :
    l'.server = l.server ∧ l'.solves = l.solves := by
  have hreply : l.reply ch = (d, l') := by
    unfold recv at h
    rw [hmsg] at h
    split at h
    · rename_i heq
      cases heq
    · exact h
  unfold reply at hreply
  split at hreply
  · cases hreply
    exact ⟨rfl, rfl⟩
  · split at hreply
    · cases hreply
      exact ⟨rfl, rfl⟩
    · cases hreply
      exact ⟨rfl, rfl⟩

/-! ## One run of a client -/

section
variable {m₀ : Machine} {solv₀ : Option (List Byte)} {want : Prop} {env : ClientEnv}

/-- **What a run keeps**, started by a client `m₀` on a server that holds `solv₀`. -/
structure Kept (m₀ : Machine) (solv₀ : Option (List Byte)) (r : ClientRun Link) : Prop where
  original : r.machine.original = m₀.original
  idle : .upload .solv ∉ r.trace →
    r.conn.server.solv = solv₀ ∧ r.machine.backup .solv = m₀.backup .solv
  acked : .acknowledged .solv ∈ r.trace → r.conn.server.solv = m₀.original .solv
  solves : ∀ x ∈ r.conn.solves, x = m₀.original .solv

/-- Only some parts of the state matter for it. -/
theorem Kept.congr {r r' : ClientRun Link} (h : Kept m₀ solv₀ r) (hm : r'.machine = r.machine)
    (ht : r'.trace = r.trace) (hs : r'.conn.server.solv = r.conn.server.solv)
    (hx : r'.conn.solves = r.conn.solves) : Kept m₀ solv₀ r' := by
  refine ⟨by rw [hm]; exact h.original, ?_, ?_, ?_⟩
  · rw [ht, hs, hm]; exact h.idle
  · rw [ht, hs]; exact h.acked
  · rw [hx]; exact h.solves

/-- Most of what a run does only goes on the record. -/
theorem Kept.recorded {r : ClientRun Link} (h : Kept m₀ solv₀ r) {e : ClientEvent}
    (he : e ≠ .acknowledged .solv) : Kept m₀ solv₀ { r with trace := r.trace ++ [e] } := by
  refine ⟨h.original, ?_, ?_, h.solves⟩
  · intro hn
    exact h.idle fun hmem => hn (List.mem_append_left _ hmem)
  · intro hack
    rcases List.mem_append.1 hack with hack | hack
    · exact h.acked hack
    · exact absurd (List.mem_singleton.1 hack).symm he

/-- A backup is made of a file that was uploaded. -/
theorem Kept.backedUp {f : UploadFile} {r : ClientRun Link} (h : Kept m₀ solv₀ r)
    (hup : .upload f ∈ r.trace) (c : Option (List Byte)) :
    Kept m₀ solv₀ { r with
      machine := { r.machine with backup := Function.update r.machine.backup f c } } := by
  refine ⟨h.original, ?_, h.acked, h.solves⟩
  intro hn
  have hf : UploadFile.solv ≠ f := by
    rintro rfl
    exact hn hup
  have hidle := h.idle hn
  exact ⟨hidle.1, (Function.update_of_ne hf _ _).trans hidle.2⟩

/-- The client may go on: nothing it has not read. -/
structure Fine (m₀ : Machine) (solv₀ : Option (List Byte)) (r : ClientRun Link) : Prop where
  kept : Kept m₀ solv₀ r
  replies : r.conn.replies = []

/-- The server holds the client's file, if that is wanted. -/
def Current (m₀ : Machine) (want : Prop) (r : ClientRun Link) : Prop :=
  want → r.conn.server.solv = m₀.original .solv

/-- Where a run is before it deals with a file. -/
def Before (m₀ : Machine) (want : Prop) : UploadFile → ClientRun Link → Prop
  | .solv, r => r.trace = []
  | .yum, r => Current m₀ want r

/-- The writes of an upload. -/
theorem writeFile_eq (f : UploadFile) (file : List Byte) (l : Link) :
    writeFile (Link.peer ch senv fuel) f file l =
      { l with message := some (headerDoc f file.length), data := file } := by
  have hfold : ∀ (writes : List (List Byte)) (l : Link),
      writes.foldl (fun conn data => (Link.peer ch senv fuel).writeData data conn) l =
        { l with data := l.data ++ writes.flatten } := by
    intro writes
    induction writes with
    | nil => intro l; simp
    | cons w writes ih =>
      intro l
      rw [List.foldl_cons, ih]
      simp [Link.peer]
  unfold writeFile
  rw [hfold, sendFileLoop_flatten]
  rfl

/-- **A receive** is what the connection does. -/
theorem receive_triple {σ : Type} {peer : Peer σ} (r : ClientRun σ) :
    Triple (· = r) (receive peer env)
      (fun p r' => ∃ c, peer.recv r.conn = (.ok p.2, c) ∧
        r' = { r with conn := c, received := r.received + 1 })
      (fun r' => ∃ h c, peer.recv r.conn = (.error h, c) ∧
        r' = { r with conn := c, received := r.received + 1 }) := by
  unfold receive
  refine Triple.get_bind ?_
  cases hr : peer.recv r.conn with
  | mk d c =>
    refine Triple.set_bind ?_
    unfold lift
    refine Triple.mk_bind ?_ ?_
    · rintro del rfl
      exact Triple.pure ⟨c, rfl, rfl⟩
    · rintro h rfl
      exact ⟨h, c, rfl, rfl⟩

/-- An upload on its way. -/
theorem Kept.uploaded {f : UploadFile} {r r' : ClientRun Link} (h : Kept m₀ solv₀ r)
    (hb : Before m₀ want f r) (hm : r'.machine = r.machine) (ht : r'.trace = r.trace ++ [.upload f])
    (hfile : ∀ g, g ≠ f → r'.conn.server.file g = r.conn.server.file g)
    (hx : r'.conn.solves = r.conn.solves) : Kept m₀ solv₀ r' := by
  refine ⟨by rw [hm]; exact h.original, ?_, ?_, by rw [hx]; exact h.solves⟩
  · intro hn
    rw [ht, List.mem_append, not_or, List.mem_singleton] at hn
    have hf : UploadFile.solv ≠ f := fun he => hn.2 (by rw [he])
    have hsolv : r'.conn.server.solv = r.conn.server.solv := hfile .solv hf
    rw [hsolv, hm]
    exact h.idle hn.1
  · intro hack
    rw [ht, List.mem_append, List.mem_singleton] at hack
    have hmem : .acknowledged .solv ∈ r.trace := by
      rcases hack with hack | hack
      · exact hack
      · cases hack
    -- an upload of `@System.solv` is the first thing a run does
    cases f with
    | solv =>
      have hnil : r.trace = [] := hb
      rw [hnil] at hmem
      cases hmem
    | yum =>
      have hsolv : r'.conn.server.solv = r.conn.server.solv := hfile .solv (by decide)
      rw [hsolv]
      exact h.acked hmem

/-- An upload taken for acknowledged. -/
theorem Kept.acknowledged {f : UploadFile} {r : ClientRun Link} (h : Kept m₀ solv₀ r)
    (hf : f = .solv → r.conn.server.solv = m₀.original .solv) :
    Kept m₀ solv₀ { r with trace := r.trace ++ [.acknowledged f] } := by
  cases f with
  | solv =>
    refine ⟨h.original, ?_, fun _ => hf rfl, h.solves⟩
    intro hn
    exact h.idle fun hmem => hn (List.mem_append_left _ hmem)
  | yum => exact h.recorded (by decide)

/-- **One upload.** If it is taken for acknowledged, the server holds the client's file. -/
theorem ssdsSendFile_triple (hch : ch.Reliable)
    (hN : ∀ file, m₀.original .solv = some file → file.length < 2 ^ 31) (f : UploadFile) :
    Triple (fun r => Fine m₀ solv₀ r ∧ Before m₀ want f r)
      (ssdsSendFile (Link.peer ch senv fuel) env f)
      (fun s r => Fine m₀ solv₀ r ∧ (s = .ok → Current m₀ want r ∧ .upload f ∈ r.trace))
      (Kept m₀ solv₀) := by
  refine Triple.of_forall fun r ⟨hr, hb⟩ => ?_
  unfold ssdsSendFile
  refine Triple.get_bind ?_
  cases ho : r.machine.original f with
  | none => exact Triple.pure ⟨hr, by intro h; cases h⟩
  | some file =>
    unfold record
    refine Triple.modify_bind (Triple.modify_bind ?_)
    simp only [writeFile_eq]
    set l₀ : Link := { r.conn with message := some (headerDoc f file.length), data := file } with hl₀
    have hreplies₀ : l₀.replies = [] := hr.replies
    -- the reply, or a halt while waiting for it
    refine Triple.bind ((receive_triple _).weaken (fun _ _ h => h) ?_) ?_
    · rintro r' ⟨h, l, hrecv, rfl⟩
      obtain ⟨-, hsolves, hother, -⟩ := Link.recv_upload hch rfl rfl hreplies₀ hrecv
      exact hr.kept.uploaded hb rfl rfl hother hsolves
    · rintro ⟨fresh, d⟩ r' ⟨l, hrecv, rfl⟩
      obtain ⟨hreplies, hsolves, hother, hstored⟩ :=
        Link.recv_upload hch rfl rfl hreplies₀ hrecv
      set r₁ : ClientRun Link := 
        ⟨l, r.machine, r.stdin, r.received + 1, r.trace ++ [.upload f], r.answer⟩
        with hr₁
      have hkept : Kept m₀ solv₀ r₁ := hr.kept.uploaded hb rfl rfl hother hsolves
      unfold lift
      refine Triple.mk_bind ?_ fun _ _ => hkept
      intro status hstatus
      by_cases hok : status = .ok
      · rw [if_pos hok]
        refine Triple.modify_bind (Triple.pure ?_)
        -- the file the client sent is the one it started with
        have hack : f = .solv → l.server.solv = m₀.original .solv := by
          rintro rfl
          have hcur : m₀.original .solv = some file := by rw [← hr.kept.original, ho]
          rw [hcur]
          exact hstored d fresh rfl (by rw [← hok]; exact hstatus) (hN file hcur)
        have hsolv : want → l.server.solv = m₀.original .solv := by
          intro hw
          cases f with
          | solv => exact hack rfl
          | yum => exact (hother .solv (by decide)).trans (hb hw)
        refine ⟨⟨hkept.acknowledged hack, hreplies⟩, fun _ => ⟨hsolv, ?_⟩⟩
        simp [hr₁]
      · rw [if_neg hok]
        exact Triple.pure ⟨⟨hkept, hreplies⟩, fun h => absurd h hok⟩

/-- **An upload and its backup.** -/
theorem sendAndBackup_triple (hch : ch.Reliable)
    (hN : ∀ file, m₀.original .solv = some file → file.length < 2 ^ 31) (f : UploadFile) :
    Triple (fun r => Fine m₀ solv₀ r ∧ Before m₀ want f r)
      (sendAndBackup (Link.peer ch senv fuel) env f)
      (fun s r => Fine m₀ solv₀ r ∧ (s = .ok → Current m₀ want r)) (Kept m₀ solv₀) := by
  refine Triple.of_forall fun r hr => ?_
  unfold sendAndBackup
  refine Triple.bind ((ssdsSendFile_triple hch hN f).from hr) ?_
  rintro status r' ⟨hfine, hpost⟩
  by_cases hok : status = .ok
  · obtain ⟨hcur, hup⟩ := hpost hok
    rw [if_pos hok]
    unfold record
    refine Triple.modify_bind (Triple.modify_bind (Triple.pure ?_))
    have hcopied : Kept m₀ solv₀ { r' with trace := r'.trace ++ [.copied f] } :=
      hfine.kept.recorded (by simp)
    exact ⟨⟨hcopied.backedUp (List.mem_append_left _ hup) _, hfine.replies⟩, fun _ => hcur⟩
  · rw [if_neg hok]
    exact Triple.pure ⟨hfine, fun h => absurd h hok⟩

/-- A file that was dealt with. -/
theorem eq_ok_of_none {status : Errors}
    (h : (if status = .ok then none else some status) = none) : status = .ok := by
  by_contra hne
  rw [if_neg hne] at h
  cases h

/-- What a new client does about a file. -/
theorem sendFirst_triple (hch : ch.Reliable)
    (hN : ∀ file, m₀.original .solv = some file → file.length < 2 ^ 31) (f : UploadFile) :
    Triple (fun r => Fine m₀ solv₀ r ∧ Before m₀ want f r)
      (sendFirst (Link.peer ch senv fuel) env f)
      (fun o r => Fine m₀ solv₀ r ∧ (o = none → Current m₀ want r)) (Kept m₀ solv₀) := by
  refine Triple.of_forall fun r hr => ?_
  unfold sendFirst
  refine Triple.bind ((sendAndBackup_triple hch hN f).from hr) ?_
  rintro status r' ⟨hfine, hcur⟩
  exact Triple.pure ⟨hfine, fun ho => hcur (eq_ok_of_none ho)⟩

/-- A question changes nothing but what is still typed. -/
theorem ask_triple {σ : Type} (r : ClientRun σ) :
    Triple (· = r) (ask : ClientM σ Answer) (fun _ r' => ∃ stdin, r' = { r with stdin })
      (fun r' => r' = r) := by
  unfold ask
  refine Triple.get_bind ?_
  unfold lift
  refine Triple.mk_bind ?_ fun _ _ => rfl
  rintro ⟨ans, stdin⟩ -
  exact Triple.modify_bind (Triple.pure ⟨stdin, rfl⟩)

/-- A known client skips a file, asks and sends nothing, or sends it as a new client does. -/
theorem sendChanged_rule {σ : Type} {peer : Peer σ} {f : UploadFile} {r : ClientRun σ}
    {post : Option Errors → ClientRun σ → Prop} {halt : ClientRun σ → Prop}
    (hskip : compareFiles (r.machine.original f) (r.machine.backup f) = .ok → post none r)
    (hstop : halt r) (hno : ∀ stdin, post (some .ok) { r with stdin })
    (hsend : ∀ stdin, Triple (· = { r with stdin }) (sendFirst peer env f) post halt) :
    Triple (· = r) (sendChanged peer env f) post halt := by
  unfold sendChanged
  refine Triple.get_bind ?_
  by_cases hc : compareFiles (r.machine.original f) (r.machine.backup f) = .ok
  · simp only [if_pos hc]
    exact Triple.pure (hskip hc)
  · simp only [if_neg hc]
    refine Triple.bind ((ask_triple r).weaken (fun _ _ h => h) ?_) ?_
    · rintro r' rfl
      exact hstop
    · rintro ans r' ⟨stdin, rfl⟩
      by_cases hans : ans = .no
      · rw [if_pos hans]
        exact Triple.pure (hno stdin)
      · rw [if_neg hans]
        exact hsend stdin

/-- **What uploads keep**: `going` where the client goes on, `ended` where a run has come to its end, and
`halt` where it has halted. -/
structure Uploads {σ : Type} (peer : Peer σ) (env : ClientEnv) (going ended halt : ClientRun σ → Prop) :
    Prop where
  stops : ∀ r, going r → ended r
  halts : ∀ r, going r → halt r
  stdin : ∀ r stdin, going r → going { r with stdin }
  copied : ∀ r f backup, going r →
    going { r with machine := { r.machine with backup }, trace := r.trace ++ [.copied f] }
  sends : ∀ f, Triple going (ssdsSendFile peer env f) (fun st r => ended r ∧ (st = .ok → going r)) halt

namespace Uploads

variable {σ : Type} {peer : Peer σ} {going ended halt : ClientRun σ → Prop}

theorem sendAndBackup (h : Uploads peer env going ended halt) (f : UploadFile) :
    Triple going (sendAndBackup peer env f) (fun st r => ended r ∧ (st = .ok → going r)) halt := by
  refine Triple.of_forall fun r hr => ?_
  unfold Rds.sendAndBackup
  refine Triple.bind ((h.sends f).from hr) ?_
  rintro status r' ⟨hended, hgoing⟩
  by_cases hok : status = .ok
  · rw [if_pos hok]
    unfold record
    refine Triple.modify_bind (Triple.modify_bind (Triple.pure ?_))
    have hcopied := fun backup => h.copied r' f backup (hgoing hok)
    exact ⟨h.stops _ (hcopied _), fun _ => hcopied _⟩
  · rw [if_neg hok]
    exact Triple.pure ⟨hended, hgoing⟩

theorem sendFirst (h : Uploads peer env going ended halt) (f : UploadFile) :
    Triple going (sendFirst peer env f) (fun o r => ended r ∧ (o = none → going r)) halt := by
  refine Triple.of_forall fun r hr => ?_
  unfold Rds.sendFirst
  refine Triple.bind ((h.sendAndBackup f).from hr) ?_
  rintro status r' ⟨hended, hgoing⟩
  exact Triple.pure ⟨hended, fun ho => hgoing (eq_ok_of_none ho)⟩

theorem sendChanged (h : Uploads peer env going ended halt) (f : UploadFile) :
    Triple going (sendChanged peer env f) (fun o r => ended r ∧ (o = none → going r)) halt := by
  refine Triple.of_forall fun r hr => ?_
  refine sendChanged_rule (fun _ => ⟨h.stops r hr, fun _ => hr⟩) (h.halts r hr) ?_ fun stdin => ?_
  · intro stdin
    exact ⟨h.stops _ (h.stdin r stdin hr), by intro ho; cases ho⟩
  · exact (h.sendFirst f).from (h.stdin r stdin hr)

/-- **All uploads of a run.** -/
theorem checkId (h : Uploads peer env going ended halt) :
    Triple going (checkId peer env) (fun o r => ended r ∧ (o = none → going r)) halt := by
  refine Triple.of_forall fun r hr => ?_
  unfold Rds.checkId
  refine Triple.get_bind ?_
  -- a new client and a known one keep the same
  have hsend : ∀ f, Triple going
      ((if r.machine.id = none then Rds.sendFirst peer env else Rds.sendChanged peer env) f)
      (fun o r => ended r ∧ (o = none → going r)) halt := by
    intro f
    by_cases hnone : r.machine.id = none
    · rw [if_pos hnone]
      exact h.sendFirst f
    · rw [if_neg hnone]
      exact h.sendChanged f
  refine Triple.bind ((hsend .solv).from hr) ?_
  rintro o r' ⟨hended, hgoing⟩
  cases o with
  | some status => exact Triple.pure ⟨hended, by intro ho; cases ho⟩
  | none => exact (hsend .yum).from (hgoing rfl)

end Uploads

/-- **What a known client does about a file.** It skips an upload only if the file looks like
its backup. -/
theorem sendChanged_triple (hch : ch.Reliable)
    (hN : ∀ file, m₀.original .solv = some file → file.length < 2 ^ 31)
    (hskip : want → compareFiles (m₀.original .solv) (m₀.backup .solv) = .ok →
      solv₀ = m₀.original .solv) (f : UploadFile) :
    Triple (fun r => Fine m₀ solv₀ r ∧ Before m₀ want f r)
      (sendChanged (Link.peer ch senv fuel) env f)
      (fun o r => Fine m₀ solv₀ r ∧ (o = none → Current m₀ want r)) (Kept m₀ solv₀) := by
  refine Triple.of_forall fun r ⟨hr, hb⟩ => ?_
  have hr' : ∀ stdin, Fine m₀ solv₀ { r with stdin } :=
    fun _ => ⟨hr.kept.congr rfl rfl rfl rfl, hr.replies⟩
  refine sendChanged_rule (fun hc => ⟨hr, fun _ => ?_⟩) hr.kept
    (fun stdin => ⟨hr' stdin, by intro h; cases h⟩) fun stdin => ?_
  · -- the upload is skipped
    cases f with
    | solv =>
      have hnil : r.trace = [] := hb
      have hidle := hr.kept.idle (by rw [hnil]; simp)
      intro hw
      rw [hr.kept.original, hidle.2] at hc
      rw [hidle.1]
      exact hskip hw hc
    | yum => exact hb
  · have hb' : Before m₀ want f { r with stdin } := by cases f <;> exact hb
    exact (sendFirst_triple hch hN f).from ⟨hr' stdin, hb'⟩

/-- **The check of the id.** -/
theorem checkId_triple (hch : ch.Reliable)
    (hN : ∀ file, m₀.original .solv = some file → file.length < 2 ^ 31)
    (hskip : want → m₀.id ≠ none →
      compareFiles (m₀.original .solv) (m₀.backup .solv) = .ok → solv₀ = m₀.original .solv) :
    Triple (fun r => Fine m₀ solv₀ r ∧ r.trace = [] ∧ r.machine.id = m₀.id)
      (checkId (Link.peer ch senv fuel) env)
      (fun o r => Fine m₀ solv₀ r ∧ (o = none → Current m₀ want r)) (Kept m₀ solv₀) := by
  refine Triple.of_forall fun r ⟨hr, hnil, hid⟩ => ?_
  unfold checkId
  refine Triple.get_bind ?_
  -- both ways to deal with a file have the same triple
  have hsend : ∀ f, Triple (fun r => Fine m₀ solv₀ r ∧ Before m₀ want f r)
      ((if r.machine.id = none then sendFirst (Link.peer ch senv fuel) env
        else sendChanged (Link.peer ch senv fuel) env) f)
      (fun o r => Fine m₀ solv₀ r ∧ (o = none → Current m₀ want r)) (Kept m₀ solv₀) := by
    intro f
    by_cases hnone : r.machine.id = none
    · rw [if_pos hnone]
      exact sendFirst_triple hch hN f
    · rw [if_neg hnone]
      rw [hid] at hnone
      exact sendChanged_triple hch hN (fun hw => hskip hw hnone) f
  refine Triple.bind ((hsend .solv).from ⟨hr, hnil⟩) ?_
  rintro o r' ⟨hfine, hcur⟩
  cases o with
  | some status => exact Triple.pure ⟨hfine, by intro h; cases h⟩
  | none => exact (hsend .yum).from ⟨hfine, hcur rfl⟩

/-- The message of a request carries its code. -/
theorem repoMessage_code {repos : List RepoEntry} {pkgs : List String} {action : Code}
    {json : SsdsJsonCreate} (h : repoMessage repos pkgs action = .ok json) :
    replyCode (ssdsJsCrToString json) = .ok action.num := by
  unfold repoMessage at h
  obtain ⟨json₁, h₁, h⟩ := bind_eq_ok.1 h
  have hrepos : Rooted json₁ action := @foldlM_invariant _ _ _ (fun json => Rooted json action) _
    (fun _ _ _ hr hadd => hr.addRepo hadd) _ _ _ (Rooted.init action) h₁
  have hpkgs : Rooted json action := @foldlM_invariant _ _ _ (fun json => Rooted json action) _
    (fun _ _ _ hr hadd => hr.addPackage hadd) _ _ _ hrepos h
  exact hpkgs.replyCode

/-- A request is written. -/
theorem ssdsSendRepo_triple {action : Code} {r : ClientRun Link} (hr : Kept m₀ solv₀ r) :
    Triple (· = r) (ssdsSendRepo (Link.peer ch senv fuel) env action)
      (fun status r' => Kept m₀ solv₀ r' ∧ (status = .ok → ∃ m,
        replyCode m = .ok action.num ∧ r'.conn = { r.conn with message := some m, data := [] }))
      (Kept m₀ solv₀) := by
  unfold ssdsSendRepo
  cases env.repos with
  | none => exact Triple.pure ⟨hr, by intro h; cases h⟩
  | some repos =>
    unfold lift
    refine Triple.mk_bind ?_ fun _ _ => hr
    intro json hjson
    unfold record
    have hrequest : Kept m₀ solv₀ { r with trace := r.trace ++ [.request action] } :=
      hr.recorded (by simp)
    refine Triple.modify_bind (Triple.modify_bind (Triple.pure ⟨?_, fun _ => ?_⟩))
    · exact hrequest.congr rfl rfl rfl rfl
    · exact ⟨_, repoMessage_code hjson, rfl⟩

/-- The server deals with a request. -/
theorem Kept.requested (hch : ch.Reliable) {op : Code} (hop : op ∈ getCodes) {r : ClientRun Link}
    (h : Kept m₀ solv₀ r) (hcur : r.conn.server.solv = m₀.original .solv) {m : Json}
    (hmsg : r.conn.message = some m) (hcode : replyCode m = .ok op.num)
    (hreplies : r.conn.replies = []) {d : Except Halt Delivery} {l : Link}
    (hrecv : r.conn.recv ch senv fuel = (d, l)) :
    l.message = none ∧ Kept m₀ solv₀ { r with conn := l, received := r.received + 1 } := by
  obtain ⟨hnone, hsolv, hsolves⟩ := Link.recv_request hch hop hmsg hcode hreplies hrecv
  refine ⟨hnone, h.original, ?_, ?_, ?_⟩
  · intro hn
    have hidle := h.idle hn
    exact ⟨hsolv.trans hidle.1, hidle.2⟩
  · intro hack
    exact hsolv.trans (h.acked hack)
  · intro x hx
    rcases hsolves x hx with hx | hx
    · exact h.solves x hx
    · rw [hx, hcur]

/-- **A request** is solved on the client's own file, if that is what the server holds. -/
theorem requestCommand_triple (hch : ch.Reliable) {action : Code} (hop : action ∈ getCodes) :
    Triple (fun r => Fine m₀ solv₀ r ∧ r.conn.server.solv = m₀.original .solv)
      (requestCommand (Link.peer ch senv fuel) env action)
      (fun _ r => Kept m₀ solv₀ r) (Kept m₀ solv₀) := by
  refine Triple.of_forall fun r ⟨hr, hcur⟩ => ?_
  unfold requestCommand
  refine Triple.bind (ssdsSendRepo_triple hr.kept) ?_
  rintro status r₁ ⟨hkept₁, hsent⟩
  by_cases hok : status = .ok
  · obtain ⟨m, hcode, hconn⟩ := hsent hok
    have hmsg : r₁.conn.message = some m := by rw [hconn]
    have hreplies : r₁.conn.replies = [] := by rw [hconn]; exact hr.replies
    have hcur₁ : r₁.conn.server.solv = m₀.original .solv := by rw [hconn]; exact hcur
    simp only [hok, ne_eq, not_true_eq_false, if_false]
    -- the first receive: the server deals with the request
    refine Triple.bind ((receive_triple r₁).weaken (fun _ _ h => h) ?_) ?_
    · rintro r₂ ⟨h, l, hrecv, rfl⟩
      exact (hkept₁.requested hch hop hcur₁ hmsg hcode hreplies hrecv).2
    · rintro ⟨fresh, d⟩ r₂ ⟨l, hrecv, rfl⟩
      obtain ⟨hnone, hkept₂⟩ := hkept₁.requested hch hop hcur₁ hmsg hcode hreplies hrecv
      unfold lift
      refine Triple.mk_bind ?_ fun _ _ => hkept₂
      rintro _ -
      -- the second one: there is nothing left for the server to do
      have hsecond : ∀ {d l'}, l.recv ch senv fuel = (d, l') → Kept m₀ solv₀
          { r₁ with conn := l', received := r₁.received + 1 + 1 } := by
        intro d l' hrecv'
        obtain ⟨hserver, hsolves⟩ := Link.recv_idle hnone hrecv'
        exact hkept₂.congr rfl rfl (by simp only [hserver]) hsolves
      refine Triple.bind ((receive_triple _).weaken (fun _ _ h => h) ?_) ?_
      · rintro r₃ ⟨h, l', hrecv', rfl⟩
        exact hsecond hrecv'
      · rintro ⟨fresh', d'⟩ r₃ ⟨l', hrecv', rfl⟩
        have hkept₃ := hsecond hrecv'
        refine Triple.get_bind ?_
        refine Triple.mk_bind ?_ fun _ _ => hkept₃
        rintro a -
        refine Triple.modify_bind (Triple.pure ?_)
        exact hkept₃.congr rfl rfl rfl rfl
  · simp only [ne_eq, hok, not_false_eq_true, if_true]
    exact Triple.pure hkept₁

theorem Command.action_mem {c : Command} {action : Code} (h : c.action = some action) :
    action ∈ getCodes := by
  cases c <;> cases h <;> decide

/-- **A whole run.** -/
theorem clientMain_kept (hch : ch.Reliable)
    (hN : ∀ file, m₀.original .solv = some file → file.length < 2 ^ 31)
    (hskip : env.effective.action ≠ none → m₀.id ≠ none →
      compareFiles (m₀.original .solv) (m₀.backup .solv) = .ok → solv₀ = m₀.original .solv) :
    Triple (fun r => Fine m₀ solv₀ r ∧ r.trace = [] ∧ r.machine.id = m₀.id)
      (clientMain (Link.peer ch senv fuel) env) (fun _ r => Kept m₀ solv₀ r) (Kept m₀ solv₀) := by
  refine Triple.of_forall fun r hr => ?_
  unfold clientMain
  refine Triple.bind ((checkId_triple hch hN hskip).from hr) ?_
  rintro o r' ⟨hfine, hcur⟩
  cases o with
  | some status => exact Triple.pure hfine.kept
  | none =>
    cases ha : env.effective.action with
    | none => exact Triple.pure hfine.kept
    | some action =>
      have hwant : r'.conn.server.solv = m₀.original .solv := hcur rfl (by rw [ha]; simp)
      exact (requestCommand_triple hch (Command.action_mem ha)).from ⟨hfine, hwant⟩

end

/-! ## Runs of the system -/

/-- The client skips its upload: it has an id, and its file looks like its backup. -/
def Skips (m : Machine) : Prop :=
  m.id ≠ none ∧ compareFiles (m.original .solv) (m.backup .solv) = .ok

/-- **The condition on a session**: messages are delivered as they were written, the file has
less than 2^31 bytes, and a client that makes a request without an upload was the last of all
to upload, with a reply and a good backup, and has not changed its file since. -/
def UploadsOwn (sys : Sys) : Event → Prop
  | .edit _ _ _ => True
  | .session j s =>
    s.channel.Reliable ∧
      (∀ file, (sys.machine j).original .solv = some file → file.length < 2 ^ 31) ∧
      (s.client.effective.action ≠ none → Skips (sys.machine j) →
        sys.last = some { client := j, kept := true } ∧
          (sys.machine j).original .solv = (sys.machine j).backup .solv)

/-- **The invariant**: every request was solved on the client's own file, and the server holds
what the last client to upload has as its backup. -/
structure Sys.Own (sys : Sys) : Prop where
  solves : ∀ s ∈ sys.solves, s.held = s.current
  last : ∀ j, sys.last = some { client := j, kept := true } →
    sys.server.solv = (sys.machine j).backup .solv

/-- The run of a session keeps what it should. -/
theorem Sys.Own.clientRun {sys : Sys} (h : sys.Own) {j : ℕ} {s : SessionInput}
    (hok : UploadsOwn sys (.session j s)) :
    Kept (sys.machine j) sys.server.solv (sys.clientRun j s) := by
  obtain ⟨hch, hN, hskip⟩ := hok
  have hskip' : s.client.effective.action ≠ none → (sys.machine j).id ≠ none →
      compareFiles ((sys.machine j).original .solv) ((sys.machine j).backup .solv) = .ok →
      sys.server.solv = (sys.machine j).original .solv := by
    intro ha hid hc
    obtain ⟨hlast, hsame⟩ := hskip ha ⟨hid, hc⟩
    rw [hsame]
    exact h.last j hlast
  have hinit : Kept (sys.machine j) sys.server.solv
      { conn := .accept sys.server, machine := sys.machine j, stdin := s.stdin, received := 0,
        trace := [] } := by
    refine ⟨rfl, fun _ => ⟨rfl, rfl⟩, ?_, ?_⟩
    · intro hack
      cases hack
    · intro x hx
      cases hx
  have hrun := @clientMain_kept s.channel s.env s.fuel _ _ _ hch hN hskip' _
    ⟨⟨hinit, rfl⟩, rfl, rfl⟩
  unfold Sys.clientRun
  split at hrun
  · rename_i heq
    rw [heq]
    exact hrun
  · rename_i heq
    rw [heq]
    exact hrun

/-- **A step keeps the invariant.** -/
theorem Sys.Own.step {sys : Sys} (h : sys.Own) {e : Event} (hok : UploadsOwn sys e) :
    (sys.step e).Own := by
  cases e with
  | edit j id original =>
    refine ⟨h.solves, ?_⟩
    intro k hk
    have hbackup : (Function.update sys.machine j { sys.machine j with id, original } k).backup =
        (sys.machine k).backup := by
      by_cases hkj : k = j
      · rw [hkj, Function.update_self]
      · rw [Function.update_of_ne hkj]
    exact (h.last k hk).trans (by rw [← hbackup]; rfl)
  | session j s =>
    have hkept := h.clientRun hok
    by_cases hhalted : sys.halted = true
    · simp only [Sys.step, hhalted, if_true]
      exact h
    · simp only [Sys.step, if_neg hhalted]
      set r := sys.clientRun j s
      constructor
      · intro x hx
        rcases List.mem_append.1 hx with hx | hx
        · exact h.solves x hx
        · obtain ⟨held, hheld, rfl⟩ := List.mem_map.1 hx
          exact hkept.solves held hheld
      · intro k hk
        change Sys.lastUpload sys.last j r = _ at hk
        change r.conn.server.solv = (Function.update sys.machine j r.machine k).backup .solv
        unfold Sys.lastUpload at hk
        split at hk
        · -- the client uploaded: the last upload is its own
          have hlast := Option.some.inj hk
          have hkj : j = k := congrArg LastUpload.client hlast
          have hgood := of_decide_eq_true (congrArg LastUpload.kept hlast)
          rw [← hkj, Function.update_self, hgood.2, hkept.original]
          exact hkept.acked hgood.1
        · -- it did not: neither the server's file nor its backup has changed
          rename_i hup
          obtain ⟨hsolv, hbackup⟩ := hkept.idle hup
          rw [hsolv, h.last k hk]
          by_cases hkj : k = j
          · rw [hkj, Function.update_self, hbackup]
          · rw [Function.update_of_ne hkj]

/-- **Each client is solved on its own data**, in every run whose sessions meet the
condition. -/
theorem own_data {sys : Sys} (hsolves : sys.solves = []) (hlast : sys.last = none)
    {events : List Event} (hok : Along Sys.step UploadsOwn sys events) :
    ∀ s ∈ (sys.run events).solves, s.held = s.current := by
  have hinit : sys.Own := by
    refine ⟨by rw [hsolves]; simp, ?_⟩
    intro j hj
    rw [hlast] at hj
    cases hj
  have hown : (sys.run events).Own :=
    @Along.invariant _ _ _ _ Sys.Own (fun _ _ hstep h => h.step hstep) _ _ hok hinit
  exact hown.solves

/-! ## Two clients -/

/-- A channel without incident, for files of one read. -/
def plainChannel : Channel where
  up _ m := .document (some m)
  down _ r := .document (some r)
  data _ _ bs := if h : bs.length ≤ maxInputLen then [.got bs h] else []
  data_prefix := by
    intro k m bs
    by_cases h : bs.length ≤ maxInputLen
    · rw [dif_pos h]
      simp [bytesOf, ReadRes.bytes]
    · rw [dif_neg h]
      exact List.nil_prefix

/-- A client that asks for one package. -/
def plainSession : SessionInput where
  client := { command := .install, pkgs := ["a"], repos := some [],
              fresh := fun _ => ⟨.null, .null, .null⟩, copy := fun _ => ⟨true, fun _ => true⟩,
              lr := plainLibrepo, rpm := plainRpm }
  stdin := []
  env := plainEnv loadEmpty
  fuel := 5
  channel := plainChannel

/-- Two new clients. Their files of installed packages differ. -/
def twoClients : Sys where
  server := plainServer ⟨[], false⟩
  machine j := { id := none, backup := fun _ => none,
                 original := fun f => some (if f = .solv then [UInt8.ofNat j] else [7]) }
  last := none
  solves := []
  halted := false

/-- The first client runs and is given an id. -/
def firstKnown : List Event :=
  [.session 0 plainSession, .edit 0 (some "0") (twoClients.machine 0).original]

/-- It runs again: the upload of its first run is still there. -/
theorem own_data_firstKnown :
    (twoClients.run (firstKnown ++ [.session 0 plainSession])).solves.length = 2 ∧
      ∀ s ∈ (twoClients.run (firstKnown ++ [.session 0 plainSession])).solves,
        s.held = s.current := by
  have hch : plainChannel.Reliable := ⟨fun _ _ => rfl, fun _ _ => rfl⟩
  have hshort : ∀ sys : Sys, (sys.machine 0).original .solv = some [0] → ∀ file,
      (sys.machine 0).original .solv = some file → file.length < 2 ^ 31 := by
    intro sys h file hfile
    rw [h] at hfile
    cases hfile
    decide
  have hfirst : UploadsOwn twoClients (.session 0 plainSession) := by
    refine ⟨hch, hshort _ rfl, fun _ hskips => ?_⟩
    exact absurd rfl hskips.1
  have hagain : UploadsOwn (twoClients.run firstKnown) (.session 0 plainSession) :=
    ⟨hch, hshort _ (by decide +kernel), fun _ _ => by decide +kernel⟩
  refine ⟨by decide +kernel, ?_⟩
  exact own_data rfl rfl ⟨hfirst, trivial, hagain, trivial⟩

/-- **A client is solved on another one's data**: between its two runs, in which its file does
not change, the second client uploads. -/
theorem others_data_solved :
    ¬ ∀ s ∈ (twoClients.run
      (firstKnown ++ [.session 1 plainSession, .session 0 plainSession])).solves,
        s.held = s.current := by
  decide +kernel

end Rds
