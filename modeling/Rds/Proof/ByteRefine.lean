import Rds.Proof.Simulation
import Rds.Proof.Talk
import Rds.Spec.Wire

/-!
# Sessions in bytes are sessions in messages

A session between two sockets (`Duplex`) against the same session as an exchange of messages
(`Link`).

* `Tied`: what holds between the two sessions where the client may receive.
* `duplex_simulates`: one receive of the client is the same in both.
* `bytes_refine`: **a whole run is the same in both**, as long as every message comes as one.
-/

namespace Rds

open Coupling

variable {w : Wire} {env : Env} {fuel : ℕ}

/-! ## What arrives -/

theorem Cut.delivers_reads (c : Cut) (k : ℕ) (bs : List Byte) :
    ∀ r ∈ c.reads k bs, r.Delivers := by
  intro r hr
  have hlen := c.delivers k bs r hr
  cases r with
  | err => exact absurd hlen (lt_irrefl 0)
  | got bytes le =>
    refine ⟨bytes, le, rfl, ?_⟩
    rintro rfl
    exact absurd hlen (lt_irrefl 0)

theorem Cut.reads_nil (c : Cut) (k : ℕ) : c.reads k [] = [] :=
  bytesOf_eq_nil (c.delivers_reads k []) (c.bytes k [])

/-- A message that comes as one, in reads that deliver. -/
theorem AsOne.messageReads {m : Json} {h : List ReadRes} (hone : AsOne env m h)
    (hd : ∀ r ∈ h, r.Delivers) : MessageReads env m h := by
  obtain ⟨⟨g, x, heq, hg, hx, hlen⟩, hload⟩ := hone
  exact ⟨⟨g, x, heq, hg, hx, (recvLimit_spec g.length).1 hlen⟩, hd, hload⟩

theorem Whole.carries {ps : List Packet} : ∀ {rs : List ReadRes}, Whole env ps rs →
    (∀ r ∈ rs, r.Delivers) → Carries env ps rs := by
  induction ps with
  | nil =>
    intro rs h _
    have hnil : rs = [] := h
    rw [hnil]
    exact .nil
  | cons p ps ih =>
    rintro rs ⟨h, ds, rest, rfl, hone, hb, hrest⟩ hd
    refine .cons (hone.messageReads fun r hr => hd r ?_) (fun r hr => hd r ?_) hb
      (ih hrest fun r hr => hd r ?_)
    · exact List.mem_append_left _ (List.mem_append_left _ hr)
    · exact List.mem_append_left _ (List.mem_append_right _ hr)
    · exact List.mem_append_right _ hr

/-- One message, with its data behind it. -/
theorem Carries.packet {p : Packet} {rs : List ReadRes} (h : Carries env [p] rs) :
    ∃ m ds, MessageReads env p.1 m ∧ rs = m ++ ds ∧ (∀ r ∈ ds, r.Delivers) ∧ bytesOf ds = p.2 := by
  cases h with
  | @cons _ _ m ds _ hm hd hb hrest =>
    refine ⟨m, ds, hm, ?_, hd, hb⟩
    rw [hrest.nil_reads, List.append_nil]

theorem MessageReads.behindMessage {m : Json} {h : List ReadRes} (hm : MessageReads env m h)
    (ds : List ReadRes) : behindMessage (h ++ ds) = ds := by
  obtain ⟨g, x, rfl, hg, hx, -⟩ := hm.frame
  have hfull : ∀ r ∈ g, decide (¬ r.Short) = true := fun r hr => decide_eq_true (hg r hr)
  have hlast : (x :: ds).dropWhile (fun r => decide (¬ r.Short)) = x :: ds :=
    List.dropWhile_cons_of_neg (by simpa using hx)
  unfold Rds.behindMessage
  rw [List.append_assoc, List.dropWhile_append_of_pos hfull, List.singleton_append, hlast,
    List.tail_cons]

/-- The data of a message that comes whole arrives in the reads behind it. -/
theorem Wire.dataReads_eq {p : Packet} {k : ℕ} {h ds : List ReadRes} (hm : MessageReads env p.1 h)
    (hreads : w.up.reads k (w.print p.1 ++ p.2) = h ++ ds) (hb : bytesOf ds = p.2) :
    w.dataReads k p.1 p.2 = ds := by
  unfold dataReads
  simp only [hreads, hm.behindMessage, hb, List.prefix_rfl, if_true]

/-- **An upload that ends by its count has read all that was there.** -/
theorem Receives.drains {N : ℕ} (hN : N < 2 ^ 31) {n w : ℤ} {k j : ℕ} {s t : Sock} {b : Bool}
    (hn : n = N) (h : Receives env n k w s b j t) (hb : b = true) (hc : s.closed = false) :
    ∀ w' : ℕ, w = w' → w' + (bytesOf s.reads).length = N → (∀ r ∈ s.reads, r.Delivers) →
      t.reads = [] := by
  -- what a frame adds to the count, and what it leaves
  have hframe : ∀ {s t : Sock} {g x} {w' : ℕ}, SockFrame s g x t → s.closed = false →
      w' + (bytesOf s.reads).length = N → (∀ r ∈ s.reads, r.Delivers) →
        (∀ r ∈ t.reads, r.Delivers) ∧ ∃ w'' : ℕ, toInt ((w' : ℤ) + frameRet g x) = w'' ∧
          w'' + (bytesOf t.reads).length = N := by
    intro s t g x w' hf hc hbytes hd
    rcases hf.reads_eq with hreads | ⟨hc', -⟩
    · rw [hreads] at hbytes hd
      have hx : x.Delivers := hd x (by simp)
      have hsplit : g ++ x :: t.reads = (g ++ [x]) ++ t.reads := by simp
      rw [hsplit, bytesOf_append, List.length_append] at hbytes
      refine ⟨fun r hr => hd r (by simp [hr]), w' + (bytesOf (g ++ [x])).length, ?_, by omega⟩
      rw [frameRet_eq hf.long hx.ne_err]
      push_cast
      exact toInt_eq (by omega) (by omega)
    · rw [hc] at hc'
      cases hc'
  induction h with
  | fails => cases hb
  | full hf hl h0 hcap hw =>
    intro w' hw' hbytes hd
    subst hw'
    obtain ⟨hdt, w'', hto, hrest⟩ := hframe hf hc hbytes hd
    refine bytesOf_eq_nil hdt (List.length_eq_zero_iff.1 ?_)
    rw [hto, hn] at hw
    omega
  | more hf hl h0 hcap hw _ ih =>
    intro w' hw' hbytes hd
    subst hw'
    obtain ⟨hdt, w'', hto, hrest⟩ := hframe hf hc hbytes hd
    exact ih hb (hf.rest.closed.trans hc) w'' hto hrest hdt

/-! ## One turn of the server -/

variable {sv sv' : Server} {status : Errors} {h ds : List ReadRes}

/-- **A turn on an upload** that comes in full sends one reply, and goes on only with nothing left
to read. -/
theorem upload_aligned {f : UploadFile} {file : List Byte} (hN : file.length < 2 ^ 31)
    (hm : MessageReads env (headerDoc f file.length) h) (hs : sv.sock = ⟨h ++ ds, false⟩)
    (hd : ∀ r ∈ ds, r.Delivers) (hb : bytesOf ds = file)
    (hp : ssdsServerProcess env fuel sv = .ok (status, sv')) :
    (∃ r, sv'.sent = sv.sent ++ [r]) ∧
      (status = .ok → sv'.clientEnd = false → sv'.sock = ⟨[], false⟩) := by
  have hn := sendFileHeader_readBytes f hN
  have hcode : ssdsJsRdGetCode (.ofRoot (some (headerDoc f file.length))) = .ok f.code.num :=
    sendFileHeader_code f file.length
  rw [hm.process hs, serverSwitch_upload hcode] at hp
  refine ⟨(uploadBranch_frame hp).1, ?_⟩
  intro hstatus hend
  rcases (uploadBranch_ok_iff hn).1 hp with ⟨-, -, js', sv₁, hloop, rfl⟩ | ⟨-, hst, -⟩
  · obtain ⟨b, j, t, hrec, he⟩ := uploadLoop_receives hloop
    have hsock : ((sv.received ⟨ds, false⟩).setFile (uploadOf f).file []).tock.sock = ⟨ds, false⟩ := by
      cases f <;> rfl
    rw [hsock] at hrec
    have hend₁ : sv₁.clientEnd = false := hend
    rw [he.clientEnd] at hend₁
    have hbt : b = true := by simpa using (Bool.or_eq_false_iff.1 hend₁).1
    have hreads : t.reads = [] :=
      hrec.drains hN rfl hbt rfl 0 rfl (by rw [hb]; omega) hd
    have hclosed := (uploadLoop_frame hloop).rest.closed
    rw [hsock, he.sock] at hclosed
    show sv₁.sock = ⟨[], false⟩
    rw [he.sock]
    obtain ⟨reads, closed⟩ := t
    simp only at hreads hclosed
    rw [hreads, hclosed]
  · rw [hstatus] at hst
    cases hst

/-- **A turn on a message of the client** sends what is owed, and goes on only with nothing left to
read. -/
theorem exchange_aligned {p : Packet} (hp : Exchange p) (hN : p.2.length < 2 ^ 31)
    (hm : MessageReads env p.1 h) (hs : sv.sock = ⟨h ++ ds, false⟩) (hd : ∀ r ∈ ds, r.Delivers)
    (hb : bytesOf ds = p.2) (hproc : ssdsServerProcess env fuel sv = .ok (status, sv')) :
    sv'.sent.length = sv.sent.length + owed p ∧
      (status = .ok → sv'.clientEnd = false → sv'.sock = ⟨[], false⟩) := by
  cases hp with
  | upload f file =>
    obtain ⟨⟨r, hr⟩, hrest⟩ := upload_aligned hN hm hs hd hb hproc
    rw [hr, List.length_append, owed_upload]
    exact ⟨rfl, hrest⟩
  | request hop hcode =>
    obtain ⟨⟨r, r', hr⟩, hend⟩ := (request_turn hop hm hs hcode).2 hproc
    rw [hr, List.length_append, owed_request hop hcode]
    refine ⟨rfl, fun _ hopen => ?_⟩
    rw [hend] at hopen
    cases hopen

/-- The server runs for one turn. -/
theorem serveAll_turn {n : ℕ} (hreads : sv.sock.reads ≠ [])
    (hproc : ssdsServerProcess env fuel sv = .ok (status, sv'))
    (hrest : status = .ok → sv'.clientEnd = false → sv'.sock = ⟨[], false⟩) :
    serveAll env fuel (n + 2) sv = .ok (decide (status ≠ .ok ∨ sv'.clientEnd = true), sv') := by
  rw [serveAll]
  simp only [if_neg hreads, hproc, bind, Except.bind]
  by_cases hend : status ≠ .ok ∨ sv'.clientEnd = true
  · simp only [if_pos hend, decide_eq_true hend]
    rfl
  · rw [not_or, not_not, Bool.not_eq_true] at hend
    have hsock := hrest hend.1 hend.2
    have hend' : ¬ (status ≠ .ok ∨ sv'.clientEnd = true) := by
      simp [hend.1, hend.2]
    simp only [if_neg hend']
    rw [serveAll, if_pos (by rw [hsock])]
    simp [hend.1, hend.2, pure, Except.pure]

/-! ## The two sessions -/

/-- Two servers that differ in their connections at most. -/
def SameServer (sv sv' : Server) : Prop := sv' = { sv with sock := sv'.sock, sent := sv'.sent }

/-- **What holds between the two sessions** where the client may receive. -/
structure Tied (env : Env) (d : Duplex) (l : Link) : Prop where
  server : SameServer d.server l.server
  sent : d.server.sent = []
  ended : d.ended = l.ended
  halted : d.halted = l.halted
  replies : Carries env (l.replies.map fun r => (r, [])) d.client.reads
  closed : d.client.closed = d.ended
  /-- An open server waits for the next message. -/
  message : d.ended = false → l.message = none
  packets : d.ended = false → d.packets = []
  sock : d.ended = false → d.server.sock = ⟨[], false⟩
  clientEnd : d.ended = false → d.server.clientEnd = false
  written : d.ended = false → d.written = l.served

/-- What holds where the client has halted. -/
structure Broken (d : Duplex) (l : Link) : Prop where
  server : SameServer d.server l.server
  ended : d.ended = l.ended
  halted : d.halted = l.halted

variable {d : Duplex} {l : Link}

theorem Tied.broken (h : Tied env d l) : Broken d l := ⟨h.server, h.ended, h.halted⟩

/-- At the end of the stream the client receives an empty text. -/
theorem sockRecv_end : ∃ b, sockRecv ⟨[], true⟩ = .ok (some b, ⟨[], true⟩) ∧ cstr b = [] := by
  have hshort : ReadRes.eof.Short := by decide
  have hf : SockFrame ⟨[], true⟩ [] .eof ⟨[], true⟩ := .last (pull_closed rfl rfl) hshort
  obtain ⟨b, hb⟩ : ∃ b, frameBuf [] .eof = some b := ⟨_, rfl⟩
  refine ⟨b, sockRecv_iff.2 ⟨[], .eof, hf, by decide, hb.symm⟩, ?_⟩
  rw [cstr_frameBuf hb]
  rfl

theorem Duplex.take_ok {b : List Byte} {sock : Sock} {root : Option Json}
    (hrecv : sockRecv d.client = .ok (some b, sock)) (hload : env.load (cstr b) = some root) :
    d.take env = (.ok (.document root), { d with client := sock }) := by
  unfold take
  rw [hrecv]
  simp only [Delivery.ofBuffer, hload]

/-- **The next reply** is the same in both sessions. -/
theorem Tied.takes (hempty : env.load [] = some none) (h : Tied env d l) :
    (∃ del d' l', d.take env = (.ok del, d') ∧ l.reply w.channel = (.ok del, l') ∧
        Tied env d' l' ∧ l'.replies = l.replies.tail) ∨
      ∃ e d' l', d.take env = (.error e, d') ∧ l.reply w.channel = (.error e, l') ∧
        Broken d' l' := by
  have hcarries := h.replies
  have hclient : d.client = ⟨d.client.reads, d.ended⟩ := by rw [← h.closed]
  unfold Link.reply
  cases hr : l.replies with
  | cons r rs =>
    left
    rw [hr] at hcarries
    obtain ⟨m, rest, hm, hrest, hreads⟩ : ∃ m rest, MessageReads env r m ∧
        Carries env (rs.map fun r => (r, [])) rest ∧ d.client.reads = m ++ rest := by
      generalize d.client.reads = reads at hcarries
      cases hcarries with
      | @cons _ _ m ds rest hm hd hb hrest =>
        refine ⟨m, rest, hm, hrest, ?_⟩
        rw [bytesOf_eq_nil hd hb, List.append_nil]
    obtain ⟨b, hrecv, hcstr⟩ := hm.frame.recv hm.delivers rest d.ended
    rw [← hreads, ← hclient] at hrecv
    have hload : env.load (cstr b) = some (some r) := by
      rw [hcstr]
      exact hm.load
    refine ⟨_, _, { l with replies := rs, delivered := l.delivered + 1 }, Duplex.take_ok hrecv hload,
      rfl, ?_, rfl⟩
    exact ⟨h.server, h.sent, h.ended, h.halted, hrest, rfl, h.message, h.packets, h.sock, h.clientEnd,
      h.written⟩
  | nil =>
    rw [hr] at hcarries
    rw [hcarries.nil_reads] at hclient
    cases hended : d.ended with
    | true =>
      left
      obtain ⟨b, hrecv, hcstr⟩ := sockRecv_end
      rw [hended] at hclient
      rw [← hclient] at hrecv
      have hload : env.load (cstr b) = some none := by
        rw [hcstr]
        exact hempty
      refine ⟨_, _, l, Duplex.take_ok hrecv hload, ?_, h, ?_⟩
      · simp only [← h.ended, hended, if_true]
      · rw [hr]
        rfl
    | false =>
      right
      rw [hended] at hclient
      refine ⟨.blocked, d, l, ?_, ?_, h.broken⟩
      · unfold Duplex.take
        rw [hclient]
        rfl
      · simp only [← h.ended, hended, Bool.false_eq_true, if_false]

/-! ## What stays torn -/

/-- A message did not come whole, or one of the programs was ended. -/
def Torn (d : Duplex) : Prop := ¬ d.intact

theorem Duplex.take_intact (env : Env) (d : Duplex) : (d.take env).2.intact = d.intact := by
  unfold take
  split
  · rfl
  · rfl

theorem Duplex.arrive_intact (hi : (d.arrive w env).intact) :
    d.intact ∧ Whole env d.packets (d.coming w) := by
  simpa [arrive] using hi

theorem Duplex.ran_intact {e : Bool} (hi : (d.ran w env e sv).intact) :
    d.intact ∧ Whole env (sv.sent.map fun r => (r, []))
      (w.down.reads d.replied (w.bytes (sv.sent.map fun r => (r, [])))) := by
  simpa [ran] using hi

/-- What a receive that leaves the connection intact came to: with nothing there yet, the server has
run to where it waits or ends, and in neither case was the client killed. -/
theorem Duplex.recv_of_intact (hi : (d.recv w env fuel).2.intact) :
    (d.client.reads = [] ∧ d.ended = false ∧ ∃ ended sv,
      serveAll env fuel ((d.arrive w env).server.sock.reads.length + 1) (d.arrive w env).server =
          .ok (ended, sv) ∧
        d.recv w env fuel = ((d.arrive w env).ran w env ended sv).take env ∧
        ((d.arrive w env).ran w env ended sv).intact) ∨
      ((d.client.reads ≠ [] ∨ d.ended = true) ∧ d.recv w env fuel = d.take env ∧ d.intact) := by
  unfold recv at hi ⊢
  by_cases hturn : d.client.reads = [] ∧ (!d.ended) = true
  · left
    rw [if_pos hturn] at hi ⊢
    simp only at hi ⊢
    refine ⟨hturn.1, by simpa using hturn.2, ?_⟩
    cases hall : serveAll env fuel ((d.arrive w env).server.sock.reads.length + 1)
        (d.arrive w env).server with
    | error e =>
      rw [hall] at hi
      exact absurd hi Bool.false_ne_true
    | ok p =>
      obtain ⟨ended, sv⟩ := p
      rw [hall] at hi
      simp only at hi
      cases hlate : d.late w ended with
      | true =>
        rw [hlate] at hi
        exact absurd hi Bool.false_ne_true
      | false =>
        rw [hlate] at hi
        refine ⟨ended, sv, rfl, ?_, ?_⟩
        · simp only [hlate, Bool.false_eq_true, if_false]
        · rw [← Duplex.take_intact env]
          exact hi
  · right
    rw [if_neg hturn] at hi ⊢
    have hwhy : d.client.reads ≠ [] ∨ d.ended = true := by
      by_cases hr : d.client.reads = []
      · exact Or.inr (by simpa [hr] using hturn)
      · exact Or.inl hr
    refine ⟨hwhy, ?_⟩
    cases hlate : d.late w d.ended with
    | true =>
      rw [hlate] at hi
      exact absurd hi Bool.false_ne_true
    | false =>
      rw [hlate] at hi
      refine ⟨by simp, ?_⟩
      rw [← Duplex.take_intact env]
      exact hi

/-- **Torn stays torn.** -/
theorem duplex_keeping : (Duplex.peer w env fuel).Keeping Torn := by
  refine ⟨fun m h => h, fun bs h => h, ?_⟩
  intro d h hi
  refine h ?_
  change (d.recv w env fuel).2.intact at hi
  rcases Duplex.recv_of_intact hi with ⟨-, -, ended, sv, -, -, hran⟩ | ⟨-, -, hi⟩
  · exact (Duplex.arrive_intact (Duplex.ran_intact hran).1).1
  · exact hi

/-! ## Receives -/

/-- Nothing arrives where nothing was written. -/
theorem Duplex.coming_nil (h : d.packets = []) : d.coming w = [] := by
  unfold coming
  rw [h]
  exact w.up.reads_nil d.written

theorem Tied.arrive (h : Tied env d l) (hopen : d.ended = false) :
    Tied env (d.arrive w env) l ∧ (d.arrive w env).server.sock = ⟨[], false⟩ := by
  have hcoming := Duplex.coming_nil (w := w) (h.packets hopen)
  have hsock : (d.arrive w env).server.sock = ⟨[], false⟩ := by
    unfold Duplex.arrive
    simp only [h.sock hopen, hcoming]
    rfl
  refine ⟨⟨?_, h.sent, h.ended, h.halted, h.replies, h.closed, h.message, fun _ => rfl,
    fun _ => hsock, h.clientEnd, ?_⟩, hsock⟩
  · have hserver := h.server
    unfold SameServer at hserver ⊢
    rw [hserver]
    rfl
  · intro _
    unfold Duplex.arrive
    simp only [h.packets hopen, List.length_nil, Nat.add_zero]
    exact h.written hopen

/-- With nothing to do the server waits on. -/
theorem Tied.ran (h : Tied env d l) (hopen : d.ended = false) :
    Tied env (d.ran w env false d.server) l := by
  have hnil : w.down.reads d.replied (w.bytes (d.server.sent.map fun r => (r, []))) = [] := by
    rw [h.sent]
    exact w.down.reads_nil d.replied
  have hserver : ({ d.server with sent := [] } : Server) = d.server := by
    rw [← h.sent]
  unfold Duplex.ran
  simp only [hnil, hserver, List.append_nil]
  have hended : false = l.ended := hopen.symm.trans h.ended
  exact ⟨h.server, h.sent, hended, h.halted, h.replies, rfl, fun _ => h.message hopen,
    fun _ => h.packets hopen, fun _ => h.sock hopen, fun _ => h.clientEnd hopen,
    fun _ => h.written hopen⟩

/-- The client reads on where it reads. -/
theorem Link.recv_reply {ch : Channel} (hmsg : l.message = none ∨ l.replies ≠ []) :
    l.recv ch env fuel = l.reply ch := by
  unfold Link.recv
  split
  · rename_i msg hr hm
    rcases hmsg with hnone | hne
    · rw [hm] at hnone
      cases hnone
    · exact absurd hr hne
  · rfl

/-- With its replies read, an ended session gives the client empty texts, whatever it has written. -/
theorem Link.recv_ended (hended : l.ended = true) (hr : l.replies = []) :
    l.recv w.channel env fuel = Link.reply w.channel { l with message := none } := by
  cases hm : l.message with
  | none =>
    have heq : ({ l with message := none } : Link) = l := by rw [← hm]
    rw [heq]
    exact Link.recv_reply (Or.inl hm)
  | some msg =>
    unfold Link.recv
    rw [hr, hm]
    simp only [hended, if_true]

/-- **A receive where the client has nothing to be answered** is the same in both sessions. -/
theorem Tied.again (hempty : env.load [] = some none) (h : Tied env d l) :
    Answered (Duplex.peer w env fuel) (Link.peer w.channel env fuel) Torn (Tied env) Broken d l := by
  by_cases hi : (d.recv w env fuel).2.intact
  · right
    -- both come to the next reply
    obtain ⟨d₁, l₁, hd, hl, h₁⟩ : ∃ d₁ l₁, d.recv w env fuel = d₁.take env ∧
        l.recv w.channel env fuel = l₁.reply w.channel ∧ Tied env d₁ l₁ := by
      rcases Duplex.recv_of_intact hi with ⟨-, hopen, ended, sv, hall, hd, -⟩ | ⟨hwhy, hd, -⟩
      · obtain ⟨harrive, hsock⟩ := h.arrive (w := w) hopen
        rw [serveAll, if_pos (by rw [hsock])] at hall
        cases hall
        have hopen' : (d.arrive w env).ended = false := hopen
        exact ⟨_, l, hd, Link.recv_reply (Or.inl (h.message hopen)), harrive.ran hopen'⟩
      · cases hended : d.ended with
        | false =>
          exact ⟨d, l, hd, Link.recv_reply (Or.inl (h.message hended)), h⟩
        | true =>
          have hended' : l.ended = true := h.ended.symm.trans hended
          have hvoid : ∀ {P : Prop}, d.ended = false → P := by
            intro P hopen
            rw [hended] at hopen
            cases hopen
          by_cases hr : l.replies = []
          · refine ⟨d, _, hd, Link.recv_ended hended' hr, ?_⟩
            exact ⟨h.server, h.sent, h.ended, h.halted, h.replies, h.closed, fun _ => rfl, hvoid, hvoid,
              hvoid, hvoid⟩
          · exact ⟨d, l, hd, Link.recv_reply (Or.inr hr), h⟩
    rcases h₁.takes (w := w) hempty with ⟨del, d', l', ht, hr, htied, -⟩ | ⟨e, d', l', ht, hr, hb⟩
    · exact Or.inl ⟨del, d', l', hd.trans ht, hl.trans hr, htied⟩
    · exact Or.inr ⟨e, d', l', hd.trans ht, hl.trans hr, hb⟩
  · exact Or.inl hi

/-! ## A message and its answer -/

/-- **The client has written** a message and the data behind it. -/
structure Pending (p : Packet) (d : Duplex) (l : Link) : Prop where
  server : SameServer d.server l.server
  sent : d.server.sent = []
  ended : d.ended = l.ended
  halted : d.halted = l.halted
  message : l.message = some p.1
  behind : l.data = p.2
  replies : l.replies = []
  reads : d.client.reads = []
  closed : d.client.closed = d.ended
  packets : d.ended = false → d.packets = [p]
  sock : d.ended = false → d.server.sock = ⟨[], false⟩
  written : d.ended = false → d.written = l.served

variable {p : Packet} {m : Json} {ch : Channel}

/-- The server a message is dealt with on. -/
def Link.fed (ch : Channel) (m : Json) (l : Link) : Server :=
  { l.server with sock := ⟨ch.data l.served m l.data, false⟩, sent := [] }.tock

theorem Link.recv_error {e : Halt} (hmsg : l.message = some m) (hr : l.replies = [])
    (hend : l.ended = false)
    (hs : serverDelivery env fuel (ch.up l.served m) (env.fresh l.server.tick) (l.fed ch m) =
      .error e) :
    ∃ l', l.recv ch env fuel = (.error e, l') ∧ l'.server = l.server ∧ l'.ended = l.ended ∧
      l'.halted = true := by
  unfold Link.fed at hs
  unfold Link.recv Link.serve
  rw [hr, hmsg]
  simp only [hend, Bool.false_eq_true, if_false, hs]
  exact ⟨_, rfl, rfl, rfl, rfl⟩

theorem Link.recv_ok (hmsg : l.message = some m) (hr : l.replies = []) (hend : l.ended = false)
    (hs : serverDelivery env fuel (ch.up l.served m) (env.fresh l.server.tick) (l.fed ch m) =
      .ok (status, sv')) :
    ∃ solves, l.recv ch env fuel = Link.reply ch ⟨sv', none, [], sv'.sent, l.served + 1, l.delivered,
      solves, status ≠ .ok || sv'.clientEnd, l.halted⟩ := by
  unfold Link.fed at hs
  unfold Link.recv Link.serve
  rw [hr, hmsg]
  simp only [hend, Bool.false_eq_true, if_false, hs]
  exact ⟨_, rfl⟩

/-- Both servers deal with the message in the same state. -/
theorem Pending.fed (h : Pending p d l) (hopen : d.ended = false)
    (hreads : w.dataReads d.written p.1 p.2 = ds) :
    ({ d.server with sock := ⟨ds, false⟩ } : Server).tock = l.fed w.channel p.1 := by
  have hserver : l.server = { d.server with sock := l.server.sock, sent := l.server.sent } := h.server
  have hdata : w.channel.data l.served p.1 l.data = ds := by
    rw [← h.written hopen, h.behind]
    exact hreads
  unfold Link.fed
  rw [hdata, hserver, ← h.sent]

/-- What has arrived is the message, and its data behind it. -/
theorem Pending.arrives (h : Pending p d l) (hopen : d.ended = false)
    (hi : (d.arrive w env).intact) : ∃ m ds, MessageReads env p.1 m ∧
      (d.arrive w env).server.sock = ⟨m ++ ds, false⟩ ∧ (∀ r ∈ ds, r.Delivers) ∧ bytesOf ds = p.2 ∧
        w.dataReads d.written p.1 p.2 = ds := by
  have hwhole := (Duplex.arrive_intact hi).2
  have hcarries := hwhole.carries (w.up.delivers_reads d.written (w.bytes d.packets))
  rw [h.packets hopen] at hcarries
  obtain ⟨m, ds, hm, hreads, hd, hb⟩ := hcarries.packet
  refine ⟨m, ds, hm, ?_, hd, hb, ?_⟩
  · unfold Duplex.arrive
    simp only [h.sock hopen, hreads]
    rfl
  · refine Wire.dataReads_eq hm ?_ hb
    rw [← hreads]
    unfold Duplex.coming
    rw [h.packets hopen]
    simp [Wire.bytes]

/-- **What the server's turn leaves** in the two sessions. -/
theorem Pending.ran (h : Pending p d l) (hopen : d.ended = false) {e : Bool}
    (hsock : e = false → sv'.sock = ⟨[], false⟩) (hend : e = false → sv'.clientEnd = false)
    (solves : List (Option (List Byte)))
    (hi : ((d.arrive w env).ran w env e sv').intact) :
    Tied env ((d.arrive w env).ran w env e sv')
      ⟨sv', none, [], sv'.sent, l.served + 1, l.delivered, solves, e, l.halted⟩ := by
  have hwhole := (Duplex.ran_intact hi).2
  have hcarries := hwhole.carries (w.down.delivers_reads _ _)
  refine ⟨rfl, rfl, rfl, h.halted, ?_, rfl, fun _ => rfl, fun _ => rfl, hsock, hend, ?_⟩
  · have hreads : ((d.arrive w env).ran w env e sv').client.reads =
        d.client.reads ++ w.down.reads d.replied (w.bytes (sv'.sent.map fun r => (r, []))) := rfl
    rw [hreads, h.reads, List.nil_append]
    exact hcarries
  · intro _
    have hlen : (d.arrive w env).written = d.written + d.packets.length := rfl
    show (d.arrive w env).written = l.served + 1
    rw [hlen, h.packets hopen, h.written hopen]
    rfl

/-- **The receive after a message** is the same in both sessions. -/
theorem Pending.answered (fuel : ℕ) (hempty : env.load [] = some none) (h : Pending p d l)
    (hp : Exchange p) (hN : p.2.length < 2 ^ 31) :
    Answered (Duplex.peer w env fuel) (Link.peer w.channel env fuel) Torn
      (fun d' l' => Tied env d' l' ∧ l'.replies.length < owed p) Broken d l := by
  by_cases hi : (d.recv w env fuel).2.intact
  swap
  · exact Or.inl hi
  right
  rcases Duplex.recv_of_intact hi with ⟨-, hopen, e, sv', hall, hd', hint⟩ | ⟨hwhy, hd, -⟩
  -- the server's turn on an open connection, or the end of a closed one
  · have hend' : l.ended = false := h.ended.symm.trans hopen
    -- what has arrived, and the server's turn on it
    obtain ⟨m, ds, hm, hsock, hdel, hb, hdata⟩ := h.arrives hopen (Duplex.ran_intact hint).1
    have hreads : (d.arrive w env).server.sock.reads ≠ [] := by
      rw [hsock]
      obtain ⟨g, x, rfl, -⟩ := hm.frame
      simp
    have hproc : ssdsServerProcess env fuel (d.arrive w env).server =
        serverDelivery env fuel (w.channel.up l.served p.1) (env.fresh l.server.tick)
          (l.fed w.channel p.1) := by
      rw [hm.process hsock, ← h.fed hopen hdata]
      have hserver : l.server = { d.server with sock := l.server.sock, sent := l.server.sent } :=
        h.server
      have htick : l.server.tick = d.server.tick := by rw [hserver]
      rw [htick]
      rfl
    rw [serveAll] at hall
    simp only [if_neg hreads] at hall
    obtain ⟨⟨status, sv₁⟩, hturn, hrest⟩ := bind_eq_ok.1 hall
    obtain ⟨howed, hgone⟩ := exchange_aligned hp hN hm hsock hdel hb hturn
    -- the turn is the last, or leaves nothing to read
    obtain ⟨rfl, rfl⟩ : sv₁ = sv' ∧ decide (status ≠ .ok ∨ sv₁.clientEnd = true) = e := by
      obtain ⟨n, hn⟩ : ∃ n, (d.arrive w env).server.sock.reads.length = n + 1 :=
        Nat.exists_eq_succ_of_ne_zero fun h0 => hreads (List.length_eq_zero_iff.1 h0)
      have hone := serveAll_turn (n := n) hreads hturn hgone
      rw [show n + 2 = (d.arrive w env).server.sock.reads.length + 1 by rw [hn], serveAll] at hone
      simp only [if_neg hreads] at hone
      have hsame := (bind_eq_ok.2 ⟨_, hturn, hrest⟩).symm.trans hone
      cases hsame
      exact ⟨rfl, rfl⟩
    rw [hproc] at hturn
    obtain ⟨solves, hl⟩ := Link.recv_ok h.message h.replies hend' hturn
    have hends : (status ≠ .ok || sv₁.clientEnd) =
        decide (status ≠ .ok ∨ sv₁.clientEnd = true) := by
      cases sv₁.clientEnd <;> simp
    rw [hends] at hl
    generalize he : decide (status ≠ .ok ∨ sv₁.clientEnd = true) = e at hd' hl hint
    have hgoes : e = false → status = .ok ∧ sv₁.clientEnd = false := by
      intro h0
      rw [h0, decide_eq_false_iff_not, not_or, not_not, Bool.not_eq_true] at he
      exact he
    have htied := h.ran hopen (fun h0 => hgone (hgoes h0).1 (hgoes h0).2)
      (fun h0 => (hgoes h0).2) solves hint
    rcases htied.takes (w := w) hempty with ⟨del, d', l', ht, hr, htied', htail⟩ |
      ⟨er, d', l', ht, hr, hb⟩
    · refine Or.inl ⟨del, d', l', hd'.trans ht, hl.trans hr, htied', ?_⟩
      have hlen : sv₁.sent.length = owed p := by
        rw [howed]
        have harrived : (d.arrive w env).server.sent = [] := h.sent
        rw [harrived, List.length_nil, Nat.zero_add]
      have hpos := owed_pos p
      rw [htail, List.length_tail, hlen]
      omega
    · exact Or.inr ⟨er, d', l', hd'.trans ht, hl.trans hr, hb⟩
  · have hended : d.ended = true := by
      rcases hwhy with hne | hended
      · exact absurd h.reads hne
      · exact hended
    have hl : l.recv w.channel env fuel = Link.reply w.channel { l with message := none } :=
      Link.recv_ended (h.ended.symm.trans hended) h.replies
    have hcarries : Carries env (l.replies.map fun r => (r, [])) d.client.reads := by
      rw [h.replies, h.reads]
      exact .nil
    have hvoid : ∀ {P : Prop}, d.ended = false → P := by
      intro P hopen
      rw [hended] at hopen
      cases hopen
    have htied : Tied env d { l with message := none } :=
      ⟨h.server, h.sent, h.ended, h.halted, hcarries, h.closed, hvoid, hvoid, hvoid, hvoid, hvoid⟩
    rcases htied.takes (w := w) hempty with ⟨del, d', l', ht, hr, htied', hrest⟩ |
      ⟨e, d', l', ht, hr, hb⟩
    · refine Or.inl ⟨del, d', l', hd.trans ht, hl.trans hr, htied', ?_⟩
      have hnil : l'.replies = [] := by
        rw [hrest]
        simp only [h.replies, List.tail_nil]
      rw [hnil]
      exact owed_pos p
    · exact Or.inr ⟨e, d', l', hd.trans ht, hl.trans hr, hb⟩

/-! ## Whole runs -/

/-- Where the client may write: it has read every reply. -/
def Idle (env : Env) (d : Duplex) (l : Link) : Prop := Tied env d l ∧ l.replies = []

/-- A message is written, with nothing behind it yet. -/
theorem Idle.write (h : Idle env d l) (m : Json) :
    Pending (m, []) { d with packets := d.packets ++ [(m, [])] }
      { l with message := some m, data := [] } := by
  obtain ⟨htied, hr⟩ := h
  have hreads : d.client.reads = [] := by
    have hcarries := htied.replies
    rw [hr] at hcarries
    exact hcarries.nil_reads
  refine ⟨htied.server, htied.sent, htied.ended, htied.halted, rfl, rfl, hr, hreads, htied.closed,
    ?_, htied.sock, htied.written⟩
  intro hopen
  have hnil := htied.packets hopen
  simp only [hnil, List.nil_append]

/-- The writes of an upload: its header, and the file behind it. -/
theorem writeFile_duplex (f : UploadFile) (file : List Byte) (d : Duplex) :
    writeFile (Duplex.peer w env fuel) f file d =
      { d with packets := d.packets ++ [(headerDoc f file.length, file)] } := by
  have hbehind : ∀ (ps : List Packet) (p : Packet) (bs : List Byte),
      Duplex.behind bs (ps ++ [p]) = ps ++ [(p.1, p.2 ++ bs)] := by
    intro ps p bs
    induction ps with
    | nil => rfl
    | cons q ps ih =>
      rw [List.cons_append, Duplex.behind, ih]
      · rfl
      · simp
  have hfold : ∀ (writes : List (List Byte)) (d : Duplex) (ps : List Packet) (p : Packet),
      d.packets = ps ++ [p] →
        writes.foldl (fun conn data => (Duplex.peer w env fuel).writeData data conn) d =
          { d with packets := ps ++ [(p.1, p.2 ++ writes.flatten)] } := by
    intro writes
    induction writes with
    | nil =>
      intro d ps p hps
      simp [← hps]
    | cons bs writes ih =>
      intro d ps p hps
      have hnext : Duplex.behind bs d.packets = ps ++ [(p.1, p.2 ++ bs)] := by
        rw [hps]
        exact hbehind ps p bs
      rw [List.foldl_cons, ih _ ps (p.1, p.2 ++ bs) hnext]
      simp [Duplex.peer]
  unfold writeFile
  rw [hfold _ _ d.packets (headerDoc f file.length, []) rfl, List.nil_append, sendFileLoop_flatten]
  rfl

/-- An upload is written. -/
theorem Idle.upload (h : Idle env d l) (f : UploadFile) (file : List Byte) :
    Pending (headerDoc f file.length, file)
      (writeFile (Duplex.peer w env fuel) f file d)
      (writeFile (Link.peer w.channel env fuel) f file l) := by
  have hm := h.write (headerDoc f file.length)
  rw [writeFile_duplex, writeFile_eq]
  refine ⟨hm.server, hm.sent, hm.ended, hm.halted, rfl, rfl, hm.replies, hm.reads, hm.closed,
    ?_, hm.sock, hm.written⟩
  intro hopen
  have hnil := h.1.packets hopen
  simp only [hnil, List.nil_append]

/-- **One receive of the client** is the same in both sessions. -/
theorem duplex_simulates (hempty : env.load [] = some none) :
    Simulates (Duplex.peer w env fuel) (Link.peer w.channel env fuel) Torn (Idle env) (Tied env)
      Broken where
  keeping := duplex_keeping
  of_idle h := h.1
  of_tied h := h.broken
  upload := by
    intro d l f file hi hN
    rcases (hi.upload f file).answered fuel hempty (.upload f file) hN with
      hgone | ⟨del, d', l', hd, hl, htied, hlen⟩ | hhalt
    · exact Or.inl hgone
    · rw [owed_upload] at hlen
      exact Or.inr (Or.inl ⟨del, d', l', hd, hl, htied, List.length_eq_zero_iff.1 (by omega)⟩)
    · exact Or.inr (Or.inr hhalt)
  request := by
    intro d l op m hi hop hcode
    have hN : ([] : List Byte).length < 2 ^ 31 := by decide
    rcases (hi.write m).answered fuel hempty (.request hop hcode) hN with
      hgone | ⟨del, d', l', hd, hl, htied, -⟩ | hhalt
    · exact Or.inl hgone
    · exact Or.inr (Or.inl ⟨del, d', l', hd, hl, htied⟩)
    · exact Or.inr (Or.inr hhalt)
  again := Tied.again hempty

/-- The two sessions are the same where a connection has just been accepted. -/
theorem Idle.accept (sv : Server) : Idle env (.accept sv) (.accept sv) := by
  refine ⟨⟨rfl, rfl, rfl, rfl, .nil, rfl, fun _ => rfl, fun _ => rfl, fun _ => rfl, fun _ => rfl,
    fun _ => rfl⟩, rfl⟩

/-- A run of the client on a connection. -/
def runOn {σ : Type} (P : Peer σ) (cenv : ClientEnv) (conn : σ) (m : Machine) (stdin : List Char) :
    Except Halt ℤ × ClientRun σ :=
  (clientMain P cenv).run.run
    { conn, machine := m, stdin, received := 0, trace := [] }

/-- The same client in the same state, and the same server but for its end of the connection. -/
structure SameRun (s : ClientRun Duplex) (t : ClientRun Link) : Prop where
  server : SameServer s.conn.server t.conn.server
  ended : s.conn.ended = t.conn.ended
  halted : s.conn.halted = t.conn.halted
  machine : s.machine = t.machine
  stdin : s.stdin = t.stdin
  received : s.received = t.received
  trace : s.trace = t.trace
  answer : s.answer = t.answer

theorem Paired.sameRun {s : ClientRun Duplex} {t : ClientRun Link} (h : Paired Broken s t) :
    SameRun s t := by
  obtain ⟨l, rfl, hb, -⟩ := h
  exact ⟨hb.server, hb.ended, hb.halted, rfl, rfl, rfl, rfl, rfl⟩

/-- **A session in bytes is a session in messages**: however the bytes are cut, the client comes to
the same end, and leaves the same behind on both sides. -/
theorem bytes_refine (w : Wire) (env : Env) (fuel : ℕ) (hempty : env.load [] = some none)
    (cenv : ClientEnv) (sv : Server) (m : Machine) (hshort : m.Short) (stdin : List Char)
    (hintact : (runOn (Duplex.peer w env fuel) cenv (.accept sv) m stdin).2.conn.intact) :
    (runOn (Duplex.peer w env fuel) cenv (.accept sv) m stdin).1 =
        (runOn (Link.peer w.channel env fuel) cenv (.accept sv) m stdin).1 ∧
      SameRun (runOn (Duplex.peer w env fuel) cenv (.accept sv) m stdin).2
        (runOn (Link.peer w.channel env fuel) cenv (.accept sv) m stdin).2 := by
  set s : ClientRun Duplex := ⟨.accept sv, m, stdin, 0, [], none⟩ with hs
  have hcoupled : Coupled (ConnGone Torn) (clientMain (Duplex.peer w env fuel) cenv) s
      (clientMain (Link.peer w.channel env fuel) cenv) (s.over (Link.accept sv))
      (fun _ => Paired (Tied env)) (Paired Broken) :=
    clientMain_coupled (duplex_simulates hempty) (Idle.accept sv) hshort
  rcases hcoupled with hgone | hagree
  · exact absurd hintact hgone
  · refine ⟨hagree.result, Paired.sameRun ?_⟩
    exact hagree.states (fun _ _ _ h => h.mono fun _ _ => Tied.broken) fun _ _ h => h

/-! ## A new client, in blocks -/

/-- One read for each byte. -/
def inBytes (bs : List Byte) : List ReadRes := bs.map fun b => .got [b] (Nat.le_of_ble_eq_true rfl)

/-- Blocks of the given sizes, at most as long as a buffer, and then single bytes. -/
def inBlocks : List ℕ → List Byte → List ReadRes
  | [], bs => inBytes bs
  | _ :: _, [] => []
  | n :: ns, b :: bs =>
    .got (b :: bs.take (min (n - 1) (maxInputLen - 1)))
        (by rw [List.length_cons, List.length_take]; unfold maxInputLen; omega) ::
      inBlocks ns (bs.drop (min (n - 1) (maxInputLen - 1)))

theorem inBytes_spec (bs : List Byte) :
    bytesOf (inBytes bs) = bs ∧ ∀ r ∈ inBytes bs, 0 < r.bytes.length := by
  induction bs with
  | nil => exact ⟨rfl, by simp [inBytes]⟩
  | cons b bs ih => exact ⟨congrArg (b :: ·) ih.1, List.forall_mem_cons.2 ⟨Nat.one_pos, ih.2⟩⟩

theorem inBlocks_spec (ns : List ℕ) : ∀ bs : List Byte,
    bytesOf (inBlocks ns bs) = bs ∧ ∀ r ∈ inBlocks ns bs, 0 < r.bytes.length := by
  induction ns with
  | nil => exact inBytes_spec
  | cons n ns ih =>
    intro bs
    cases bs with
    | nil => exact ⟨rfl, by simp [inBlocks]⟩
    | cons b bs =>
      obtain ⟨hbytes, hpos⟩ := ih (bs.drop (min (n - 1) (maxInputLen - 1)))
      refine ⟨?_, List.forall_mem_cons.2 ⟨Nat.succ_pos _, hpos⟩⟩
      show (b :: bs.take (min (n - 1) (maxInputLen - 1))) ++ bytesOf (inBlocks ns _) = b :: bs
      rw [hbytes, List.cons_append, List.take_append_drop]

/-- What is written goes in blocks, of sizes by the number of messages before it. -/
def blockCut (sizes : ℕ → List ℕ) : Cut where
  reads k bs := inBlocks (sizes k) bs
  bytes k bs := (inBlocks_spec (sizes k) bs).1
  delivers k bs := (inBlocks_spec (sizes k) bs).2

/-- A session of the given messages, each of which comes in a block of its own. -/
def blockWire (ups : List Json) (downs : List (List Json)) : Wire where
  print := printed
  up := blockCut fun k => (ups.drop k).take 1 |>.map fun m => (printed m).length
  down := blockCut fun k => (downs.drop k).head?.getD [] |>.map fun m => (printed m).length
  late _ := false

/-- The parser on the texts of the given messages. -/
def readBack (docs : List Json) (t : List Byte) : Option (Option Json) :=
  match t with
  | [] => some none
  | t => (docs.find? fun m => printed m = t).map some

/-- The request of the new client: one package to install. -/
def newRequest : Json :=
  match repoMessage [] ["a"] .getInstall with
  | .ok json => ssdsJsCrToString json
  | .error _ => .null

def newReplyOk : Json := ssdsJsCrToString (ssdsJsCrInit .answerOk)

/-- The answer: nothing is found. -/
def newAnswer : Json :=
  match ssdsDepQuery ((plainEnv loadEmpty).hawkey 0) (fun _ => .good "a") (ssdsJsCrInit .answerOk)
    [] .getInstall 1 with
  | .ok r => ssdsJsCrToString (solvedMessage (-1) r)
  | .error _ => .null

/-- What the client sends: two uploads and the request. -/
def newMessages : List Json := [headerDoc .solv 1, headerDoc .yum 1, newRequest]

/-- All that is written in its session. -/
def sessionDocs : List Json := newReplyOk :: newAnswer :: newMessages

def sessionWire : Wire := blockWire newMessages [[newReplyOk], [newReplyOk], [newReplyOk, newAnswer]]

def sessionEnv : Env :=
  { plainEnv (readBack sessionDocs) with reg := fun _ => -1 }

/-- A client without an id, with two files of one byte. -/
def freshMachine : Machine where
  id := none
  original f := some (if f = .solv then [7] else [8])
  backup _ := none

theorem freshMachine_short : freshMachine.Short := by
  intro f file hf
  cases hf
  cases f <;> decide

/-- The session that this client makes, with both uploads and a request, comes through. -/
def freshRun : Except Halt ℤ × ClientRun Duplex :=
  runOn (Duplex.peer sessionWire sessionEnv 5) plainSession.client (.accept (plainServer ⟨[], false⟩))
    freshMachine []

theorem freshRun_intact : freshRun.2.conn.intact := by decide +kernel

theorem bytes_refine_fresh :
    freshRun.1 = (runOn (Link.peer sessionWire.channel sessionEnv 5) plainSession.client
        (.accept (plainServer ⟨[], false⟩)) freshMachine []).1 ∧
      SameRun freshRun.2 (runOn (Link.peer sessionWire.channel sessionEnv 5) plainSession.client
        (.accept (plainServer ⟨[], false⟩)) freshMachine []).2 :=
  bytes_refine sessionWire sessionEnv 5 rfl plainSession.client (plainServer ⟨[], false⟩)
    freshMachine freshMachine_short [] freshRun_intact

end Rds
