import Rds.Proof.Script
import Rds.Proof.Turn

/-!
# Client and server in step

A client and the server at the two ends of one connection that delivers every message as one
and every file in full, taking turns in any order. Which message a reply answers is on record.

* `Talk.Inv`: what holds between the two as long as no upload is cut short.
* `in_step`: every receive gets the reply it is for, no reply is left over, and the two never
  wait for each other.
* `whole_block_deadlocks`: a file of exactly one block.
-/

namespace Rds

open Invariant

variable {c : ClientStart} {env : Env} {u : Upload}

/-! ## The two sides -/

/-- **Reads that carry whole messages**, each with the data behind it. -/
inductive Carries (env : Env) : List Packet → List ReadRes → Prop
  | nil : Carries env [] []
  | cons {p ps h ds rs} : MessageReads env p.1 h → (∀ r ∈ ds, r.Delivers) → bytesOf ds = p.2 →
      Carries env ps rs → Carries env (p :: ps) (h ++ ds ++ rs)

theorem Carries.append {ps qs : List Packet} {rs ts : List ReadRes} (h : Carries env ps rs)
    (h' : Carries env qs ts) : Carries env (ps ++ qs) (rs ++ ts) := by
  induction h with
  | nil => exact h'
  | cons hm hd hb _ ih =>
    rw [List.append_assoc]
    exact .cons hm hd hb ih

theorem Carries.nil_reads {rs : List ReadRes} (h : Carries env [] rs) : rs = [] := by
  cases h
  rfl

theorem Carries.single {p : Packet} {rs : List ReadRes} (h : Carries env [p] rs) :
    ∃ m ds, MessageReads env p.1 m ∧ rs = m ++ ds := by
  cases h with
  | @cons _ _ m ds _ hm _ _ hrest =>
    refine ⟨m, ds, hm, ?_⟩
    rw [hrest.nil_reads, List.append_nil]

/-- With nothing to read from an open connection the server waits. -/
theorem ssdsServerProcess_waits {fuel : ℕ} {sv : Server} (h : sv.sock = ⟨[], false⟩) :
    ssdsServerProcess env fuel sv = .error .blocked := by
  unfold ssdsServerProcess
  rw [h]
  rfl

/-- **A turn on a message of the client**: it comes to its end, sends what is owed, and goes on
only with nothing left to read. -/
theorem exchange_turn {p : Packet} (hp : Exchange p) {m ds : List ReadRes} {fuel : ℕ}
    {status : Errors} {sv sv' : Server} (hm : MessageReads env p.1 m)
    (hs : sv.sock = ⟨m ++ ds, false⟩) (hfed : sv.Fed env) :
    ssdsServerProcess env fuel sv ≠ .error .blocked ∧
      (ssdsServerProcess env fuel sv = .ok (status, sv') →
        sv'.sent.length = sv.sent.length + owed p ∧
          (status = .ok → sv'.clientEnd = false → sv'.sock = ⟨[], false⟩)) := by
  cases hp with
  | upload f file =>
    obtain ⟨n, hn⟩ :
        ∃ n, ssdsJsRdGetReadBytes (.ofRoot (some (headerDoc f file.length))) = .ok n := by
      cases f <;> exact ⟨_, rfl⟩
    obtain ⟨hends, hok⟩ := @upload_turn env _ m ds sv sv' fuel status f n hm hs
      (sendFileHeader_code f file.length) hn hfed
    refine ⟨hends, fun hp => ?_⟩
    obtain ⟨⟨r, hr⟩, hrest⟩ := hok hp
    rw [hr, List.length_append, owed_upload]
    exact ⟨rfl, hrest⟩
  | request hop hcode =>
    obtain ⟨hends, hok⟩ := @request_turn env _ m ds sv sv' fuel status _ hop hm hs hcode
    refine ⟨hends, fun hp => ?_⟩
    obtain ⟨⟨r, r', hr⟩, hend⟩ := hok hp
    rw [hr, List.length_append, owed_request hop hcode]
    refine ⟨rfl, ?_⟩
    intro _ hopen
    rw [hend] at hopen
    cases hopen

/-- What a turn has sent when it crashes: a request is acknowledged first. -/
def sentBeforeCrash (env : Env) (sv : Server) : List Json :=
  match sockRecv sv.sock with
  | .ok (buf, _) =>
    if startsSolving (.ofBuffer env.load buf) (env.fresh sv.tick) then
      [ssdsJsCrToString (ssdsJsCrInit .answerOk)]
    else []
  | .error _ => []

/-- The two sides of a connection: what the client has received, the server, how many replies
were delivered, which message each reply answers, how many messages were served, and whether
the server has closed the connection. -/
structure Talk where
  got : List Delivery
  server : Server
  delivered : ℕ
  answers : List ℕ
  served : ℕ
  closed : Bool

namespace Talk

/-- What the client has written by now. -/
def wrote (c : ClientStart) (t : Talk) : List Packet := (c.after t.got).2.conn.wrote

/-- The client waits for a reply. -/
def Waiting (c : ClientStart) (t : Talk) : Prop := (c.after t.got).2.conn.waiting = true

/-- The client has received one more answer and gone on; what it then writes arrives. -/
def receive (t : Talk) (d : Delivery) (rs : List ReadRes) : Talk :=
  { t with
    got := t.got ++ [d]
    server := { t.server with
      sock := { t.server.sock with reads := t.server.sock.reads ++ rs } } }

/-- The server has dealt with one more message. -/
def serve (t : Talk) (sv : Server) (closed : Bool) : Talk :=
  { t with
    server := sv
    answers := t.answers ++
      List.replicate (sv.sent.length - t.server.sent.length) (t.served + 1)
    served := t.served + 1
    closed }

/-- The connection as it is accepted, with the client's first message on its way. -/
structure Start (c : ClientStart) (env : Env) (t : Talk) : Prop where
  got : t.got = []
  reads : Carries env (t.wrote c) t.server.sock.reads
  opened : t.server.sock.closed = false
  sent : t.server.sent = []
  clientEnd : t.server.clientEnd = false
  delivered : t.delivered = 0
  answers : t.answers = []
  served : t.served = 0
  closed : t.closed = false

/-- **One step of either side.** The server closes the connection when its loop ends, or with
its process. A client that waits then receives an empty text. -/
inductive Step (c : ClientStart) (env : Env) (t : Talk) : Talk → Prop
  | reply {r rs} : t.Waiting c → t.server.sent[t.delivered]? = some r →
      Carries env (((t.receive (.document (some r)) rs).wrote c).drop (t.wrote c).length) rs →
      Step c env t { t.receive (.document (some r)) rs with delivered := t.delivered + 1 }
  | closed : t.Waiting c → t.delivered = t.server.sent.length → t.closed = true →
      Step c env t (t.receive (.document none) [])
  | serve {fuel status sv} : t.closed = false →
      ssdsServerProcess env fuel t.server = .ok (status, sv) →
      Step c env t (t.serve sv (status ≠ .ok || sv.clientEnd))
  | crash {fuel} : t.closed = false → ssdsServerProcess env fuel t.server = .error .crash →
      Step c env t (t.serve
        { t.server with sent := t.server.sent ++ sentBeforeCrash env t.server } true)

/-- The states of the runs whose states all meet a condition. -/
inductive Reached (c : ClientStart) (env : Env) (ok : Talk → Prop) : Talk → Prop
  | start {t} : Start c env t → ok t → Reached c env ok t
  | step {t t'} : Reached c env ok t → Step c env t t' → ok t' → Reached c env ok t'

/-- **Both sides wait** and nothing is in flight. -/
def Deadlock (c : ClientStart) (env : Env) (t : Talk) : Prop :=
  t.Waiting c ∧ t.delivered = t.server.sent.length ∧ t.closed = false ∧
    ∃ fuel, ssdsServerProcess env fuel t.server = .error .blocked

/-- **In step.** Of the receives, each is for the next reply that is owed, and the replies are
the ones that are owed: two for a request, one for an upload. -/
structure InStep (c : ClientStart) (env : Env) (t : Talk) : Prop where
  receives : (c.after t.got).2.conn.receives <+: labels (t.wrote c)
  answers : t.answers <+: labels (t.wrote c)
  recorded : t.answers.length = t.server.sent.length
  /-- The messages served before the server closes have all their replies. -/
  complete : t.closed = false → t.answers = labels ((t.wrote c).take t.served)
  /-- A receive that is over got a reply to the message it waited on, or the server had closed
  with every reply read. -/
  matched : ∀ i < t.got.length,
    (∃ n, (c.after t.got).2.conn.receives[i]? = some n ∧ t.answers[i]? = some n) ∨
      (t.closed = true ∧ t.server.sent.length ≤ i)
  /-- A client that has returned has read every reply, to every message served. -/
  unread : ∀ rc, (c.after t.got).1 = .ok rc →
    t.delivered = t.server.sent.length ∧ (t.closed = false → t.served = (t.wrote c).length)
  live : ¬ t.Deadlock c env

/-! ## The invariant -/

/-- As long as the server has not closed: it has answered the messages it served, and the next
one, if any, is on its way. -/
structure Open (c : ClientStart) (env : Env) (t : Talk) : Prop where
  sock : t.server.sock.closed = false
  clientEnd : t.server.clientEnd = false
  served : t.served ≤ (t.wrote c).length
  answers : t.answers = labels ((t.wrote c).take t.served)
  reads : Carries env ((t.wrote c).drop t.served) t.server.sock.reads

/-- **What holds between the two sides.** -/
structure Inv (c : ClientStart) (env : Env) (t : Talk) : Prop where
  drained : (c.after t.got).2.conn.replies = []
  answers : t.answers <+: labels (t.wrote c)
  recorded : t.answers.length = t.server.sent.length
  delivered : t.delivered ≤ t.server.sent.length
  ahead : t.delivered ≤ t.got.length
  ended : t.delivered < t.got.length → t.closed = true ∧ t.delivered = t.server.sent.length
  opened : t.closed = false → Open c env t

variable {t t' : Talk}

/-- The receives of the client, counted. -/
theorem Inv.receives (h : Inv c env t) :
    (c.after t.got).2.conn.receives.length =
      t.got.length + (c.after t.got).2.conn.waiting.toNat := by
  have hcount := (c.after_stopped t.got).1.count
  rw [h.drained, List.length_nil] at hcount
  exact hcount

theorem Inv.start (h : Start c env t) : Inv c env t := by
  have hdrained : (c.after t.got).2.conn.replies = [] := by
    have hstopped := (c.after_stopped t.got).1
    have hcount := hstopped.count
    cases hw : (c.after t.got).2.conn.waiting with
    | true => exact hstopped.drained hw
    | false =>
      rw [hw, h.got, List.length_nil, Bool.toNat_false] at hcount
      rw [h.got, ← List.length_eq_zero_iff]
      omega
  have hgot : t.got.length = 0 := by rw [h.got]; rfl
  have hdelivered := h.delivered
  refine ⟨hdrained, ?_, ?_, ?_, ?_, ?_, ?_⟩
  · rw [h.answers]
    exact List.nil_prefix
  · rw [h.answers, h.sent, List.length_nil, List.length_nil]
  · omega
  · omega
  · omega
  · intro _
    refine ⟨h.opened, h.clientEnd, ?_, ?_, ?_⟩
    · rw [h.served]
      exact Nat.zero_le _
    · rw [h.answers, h.served]
      rfl
    · rw [h.served]
      exact h.reads

/-! ## The client goes on -/

/-- One more answer to a waiting client. -/
theorem Inv.goesOn (h : Inv c env t) (hw : t.Waiting c) (d : Delivery) (rs : List ReadRes) :
    t.wrote c <+: (t.receive d rs).wrote c ∧
      (c.after (t.receive d rs).got).2.conn.replies = [] ∧
      t.answers <+: labels ((t.receive d rs).wrote c) := by
  obtain ⟨hwrote, hnil⟩ := c.after_more t.got d hw
  exact ⟨hwrote, hnil, h.answers.trans (labels_mono hwrote)⟩

/-- **A reply** is delivered. -/
theorem Inv.reply (h : Inv c env t) {r : Json} {rs : List ReadRes} (hw : t.Waiting c)
    (hr : t.server.sent[t.delivered]? = some r)
    (hrs : Carries env (((t.receive (.document (some r)) rs).wrote c).drop (t.wrote c).length) rs) :
    Inv c env { t.receive (.document (some r)) rs with delivered := t.delivered + 1 } := by
  obtain ⟨hwrote, hnil, hanswers⟩ := h.goesOn hw (.document (some r)) rs
  obtain ⟨hlt, -⟩ := List.getElem?_eq_some_iff.1 hr
  have hahead : t.got.length = t.delivered := by
    have hle := h.ahead
    rcases Nat.lt_or_ge t.delivered t.got.length with hd | hd
    · have hended := (h.ended hd).2
      omega
    · omega
  have hgot : (t.got ++ [Delivery.document (some r)]).length = t.delivered + 1 := by
    rw [List.length_append, hahead, List.length_singleton]
  refine ⟨hnil, hanswers, h.recorded, hlt, hgot.ge, ?_, ?_⟩
  · intro hd
    have hd' : t.delivered + 1 < (t.got ++ [Delivery.document (some r)]).length := hd
    omega
  · intro hc
    have ho := h.opened hc
    obtain ⟨more, hmore⟩ := hwrote
    have hserved := ho.served
    rw [← hmore, List.drop_left] at hrs
    refine ⟨ho.sock, ho.clientEnd, ?_, ?_, ?_⟩
    · show t.served ≤ ((t.receive (.document (some r)) rs).wrote c).length
      rw [← hmore, List.length_append]
      omega
    · show t.answers = labels (((t.receive (.document (some r)) rs).wrote c).take t.served)
      rw [← hmore, List.take_append_of_le_length hserved]
      exact ho.answers
    · show Carries env (((t.receive (.document (some r)) rs).wrote c).drop t.served)
        (t.server.sock.reads ++ rs)
      rw [← hmore, List.drop_append_of_le_length hserved]
      exact ho.reads.append hrs

/-- **The end of the connection** is noticed. -/
theorem Inv.closed (h : Inv c env t) (hw : t.Waiting c)
    (hd : t.delivered = t.server.sent.length) (hc : t.closed = true) :
    Inv c env (t.receive (.document none) []) := by
  obtain ⟨-, hnil, hanswers⟩ := h.goesOn hw (.document none) []
  refine ⟨hnil, hanswers, h.recorded, h.delivered, ?_, fun _ => ⟨hc, hd⟩, ?_⟩
  · show t.delivered ≤ (t.got ++ [Delivery.document none]).length
    rw [List.length_append]
    exact h.ahead.trans (Nat.le_add_right _ _)
  · intro hopen
    have hopen' : t.closed = false := hopen
    rw [hc] at hopen'
    cases hopen'

/-! ## The server goes on -/

/-- An open connection has delivered what the client received. -/
theorem Inv.got_length (h : Inv c env t) (hc : t.closed = false) : t.got.length = t.delivered := by
  have hahead := h.ahead
  rcases Nat.lt_or_ge t.delivered t.got.length with hd | hd
  · have hclosed := (h.ended hd).1
    rw [hc] at hclosed
    cases hclosed
  · omega

/-- **One message at most** is on its way: the client has received what it was owed for those
before. -/
theorem Inv.pending (h : Inv c env t) (hc : t.closed = false) :
    (t.wrote c).length ≤ t.served + 1 := by
  have hearlier := (c.after_stopped t.got).1.earlier
  have hgot := h.got_length hc
  have hdelivered := h.delivered
  rw [h.receives, hgot] at hearlier
  rw [← h.recorded, (h.opened hc).answers] at hdelivered
  by_contra hlt
  have hserved : t.served < (t.wrote c).dropLast.length := by
    rw [List.length_dropLast]
    omega
  have hmore := labels_take_lt hserved
  have htake : (t.wrote c).dropLast.take t.served = (t.wrote c).take t.served := by
    rw [List.dropLast_eq_take, List.take_take, min_eq_left]
    omega
  rw [htake] at hmore
  have hlabels : (labels (t.wrote c).dropLast).length ≤ t.delivered :=
    Nat.le_of_add_le_add_right hearlier
  omega

/-- **The next message**, if there is one, and nothing behind it. -/
theorem Inv.next (h : Inv c env t) (hc : t.closed = false) :
    (t.served = (t.wrote c).length ∧ t.server.sock = ⟨[], false⟩) ∨
      ∃ p m ds, t.wrote c = (t.wrote c).take t.served ++ [p] ∧ Exchange p ∧
        MessageReads env p.1 m ∧ t.server.sock = ⟨m ++ ds, false⟩ := by
  have ho := h.opened hc
  have hserved := ho.served
  have hpending := h.pending hc
  have hreads := ho.reads
  have hsock : t.server.sock = ⟨t.server.sock.reads, false⟩ := by
    rw [← ho.sock]
  rcases Nat.eq_or_lt_of_le hserved with heq | hlt
  · rw [heq, List.drop_length] at hreads
    have hnil : t.server.sock.reads = [] := hreads.nil_reads
    rw [hnil] at hsock
    exact Or.inl ⟨heq, hsock⟩
  · have hlast : (t.wrote c).drop t.served = [(t.wrote c)[t.served]] := by
      rw [List.drop_eq_getElem_cons hlt, List.drop_eq_nil_of_le (by omega)]
    rw [hlast] at hreads
    obtain ⟨m, ds, hm, heq⟩ := hreads.single
    rw [heq] at hsock
    refine Or.inr ⟨(t.wrote c)[t.served], m, ds, ?_, ?_, hm, hsock⟩
    · rw [← hlast, List.take_append_drop]
    · exact (c.after_stopped t.got).1.exchanges _ (List.getElem_mem hlt)

/-- A turn that sends no more than is owed for the message `p`, and all of it if the connection
stays open. -/
theorem Inv.turn (h : Inv c env t) (hc : t.closed = false) {p : Packet}
    (hwrote : t.wrote c = (t.wrote c).take t.served ++ [p]) {sv : Server} {k : ℕ} {closed : Bool}
    (hsent : sv.sent.length = t.server.sent.length + k) (hk : k ≤ owed p)
    (hopen : closed = false → k = owed p ∧ sv.clientEnd = false ∧ sv.sock = ⟨[], false⟩) :
    Inv c env (t.serve sv closed) := by
  have ho := h.opened hc
  have hlength : (t.wrote c).length = t.served + 1 := by
    rw [hwrote, List.length_append, List.length_take_of_le ho.served, List.length_singleton]
  have hlabels : labels (t.wrote c) = t.answers ++ List.replicate (owed p) (t.served + 1) := by
    rw [hwrote, labels_concat, List.length_take_of_le ho.served, ho.answers]
  have hanswers : (t.serve sv closed).answers = t.answers ++ List.replicate k (t.served + 1) := by
    show t.answers ++ List.replicate (sv.sent.length - t.server.sent.length) (t.served + 1) = _
    rw [hsent, Nat.add_sub_cancel_left]
  have hdelivered := h.delivered
  have hgot := h.got_length hc
  refine ⟨h.drained, ?_, ?_, ?_, h.ahead, ?_, ?_⟩
  · show (t.serve sv closed).answers <+: labels (t.wrote c)
    rw [hanswers, hlabels]
    refine (List.prefix_append_right_inj _).2 ?_
    exact List.prefix_replicate_iff.2 ⟨by rw [List.length_replicate]; exact hk, by simp⟩
  · show (t.serve sv closed).answers.length = sv.sent.length
    rw [hanswers, List.length_append, List.length_replicate, h.recorded, hsent]
  · show t.delivered ≤ sv.sent.length
    omega
  · intro hd
    have hd' : t.delivered < t.got.length := hd
    omega
  · intro hclosed
    obtain ⟨hall, hend, hsock⟩ := hopen hclosed
    refine ⟨?_, hend, hlength.ge, ?_, ?_⟩
    · show sv.sock.closed = false
      rw [hsock]
    · show (t.serve sv closed).answers = labels ((t.wrote c).take (t.served + 1))
      rw [← hlength, List.take_length, hanswers, hlabels, hall]
    · show Carries env ((t.wrote c).drop (t.served + 1)) sv.sock.reads
      rw [← hlength, List.drop_length, hsock]
      exact .nil

/-- **A turn of the server** that returns sends the replies that are owed. -/
theorem Inv.serve (h : Inv c env t) (hc : t.closed = false) (hfed : t.server.Fed env)
    {fuel : ℕ} {status : Errors} {sv : Server}
    (hp : ssdsServerProcess env fuel t.server = .ok (status, sv)) :
    Inv c env (t.serve sv (status ≠ .ok || sv.clientEnd)) := by
  rcases h.next hc with ⟨-, hsock⟩ | ⟨p, m, ds, hwrote, hex, hm, hsock⟩
  · rw [ssdsServerProcess_waits hsock] at hp
    cases hp
  · obtain ⟨-, hok⟩ := @exchange_turn env p hex m ds fuel status t.server sv hm hsock hfed
    obtain ⟨hsent, hrest⟩ := hok hp
    refine h.turn hc hwrote hsent le_rfl ?_
    intro hopen
    obtain ⟨hstatus, hend⟩ := Bool.or_eq_false_iff.1 hopen
    have hst : status = .ok := not_not.1 (of_decide_eq_false hstatus)
    exact ⟨rfl, hend, hrest hst hend⟩

/-- **A turn that crashes** sends no more than is owed. -/
theorem Inv.crash (h : Inv c env t) (hc : t.closed = false) {fuel : ℕ}
    (hp : ssdsServerProcess env fuel t.server = .error .crash) :
    Inv c env (t.serve
      { t.server with sent := t.server.sent ++ sentBeforeCrash env t.server } true) := by
  have hone : (sentBeforeCrash env t.server).length ≤ 1 := by
    unfold sentBeforeCrash
    split
    · split
      · exact le_rfl
      · exact Nat.zero_le _
    · exact Nat.zero_le _
  rcases h.next hc with ⟨-, hsock⟩ | ⟨p, m, ds, hwrote, -, -, -⟩
  · rw [ssdsServerProcess_waits hsock] at hp
    cases hp
  · refine h.turn hc hwrote List.length_append (hone.trans (owed_pos p)) ?_
    intro hopen
    cases hopen

/-- **What a step preserves**, as long as the server is fed. -/
theorem Inv.step (h : Inv c env t) (hfed : t.closed = false → t.server.Fed env)
    (hstep : Step c env t t') : Inv c env t' := by
  cases hstep with
  | reply hw hr hrs => exact h.reply hw hr hrs
  | closed hw hd hc => exact h.closed hw hd hc
  | serve hc hp => exact h.serve hc (hfed hc) hp
  | crash hc hp => exact h.crash hc hp

/-- **Two sides that wait for each other** are not in this relation. -/
theorem Inv.live (h : Inv c env t) (hfed : t.closed = false → t.server.Fed env) :
    ¬ t.Deadlock c env := by
  rintro ⟨hw, hd, hc, fuel, hblocked⟩
  rcases h.next hc with ⟨hserved, -⟩ | ⟨p, m, ds, -, hex, hm, hsock⟩
  · -- the receive it waits in is owed, so there is a message to serve
    have howed := (c.after_stopped t.got).1.receives.length_le
    have hgot := h.got_length hc
    have hanswers := (h.opened hc).answers
    have hwait : (c.after t.got).2.conn.waiting = true := hw
    rw [h.receives, hwait, Bool.toNat_true, hgot, hd, ← h.recorded, hanswers, hserved,
      List.take_length] at howed
    have hle : (labels (t.wrote c)).length + 1 ≤ (labels (t.wrote c)).length := howed
    omega
  · exact (@exchange_turn env p hex m ds fuel .ok t.server t.server hm hsock (hfed hc)).1 hblocked

theorem Inv.matched (h : Inv c env t) {i : ℕ} (hi : i < t.got.length) :
    (∃ n, (c.after t.got).2.conn.receives[i]? = some n ∧ t.answers[i]? = some n) ∨
      (t.closed = true ∧ t.server.sent.length ≤ i) := by
  have hreceives := (c.after_stopped t.got).1.receives
  have hlength := h.receives
  rcases Nat.lt_or_ge i t.server.sent.length with hsent | hsent
  · have hr : i < (c.after t.got).2.conn.receives.length := by omega
    have ha : i < t.answers.length := by rw [h.recorded]; exact hsent
    have hlabels : i < (labels (t.wrote c)).length := ha.trans_le h.answers.length_le
    refine Or.inl ⟨(labels (t.wrote c))[i], ?_, ?_⟩
    · rw [List.getElem?_eq_getElem hr, hreceives.getElem hr]
      rfl
    · rw [List.getElem?_eq_getElem ha, h.answers.getElem ha]
  · have hdelivered := h.delivered
    exact Or.inr ⟨(h.ended (by omega)).1, hsent⟩

/-- A client that has returned has received all it was owed. -/
theorem Inv.unread (h : Inv c env t) {rc : ℤ} (hrc : (c.after t.got).1 = .ok rc) :
    t.delivered = t.server.sent.length ∧
      (t.closed = false → t.served = (t.wrote c).length) := by
  have hsettled := (c.after_stopped t.got).2 rc hrc
  have hall : t.got.length = (labels (t.wrote c)).length := by
    have hlength := h.receives
    rw [hsettled.waiting, hsettled.receives] at hlength
    exact hlength.symm
  have hanswers := h.answers.length_le
  have hrecorded := h.recorded
  have hdelivered := h.delivered
  have hread : t.delivered = t.server.sent.length := by
    rcases Nat.lt_or_ge t.delivered t.got.length with hd | hd
    · exact (h.ended hd).2
    · omega
  refine ⟨hread, ?_⟩
  intro hc
  have ho := h.opened hc
  have hgot := h.got_length hc
  rcases Nat.eq_or_lt_of_le ho.served with heq | hlt
  · exact heq
  · have hmore := labels_take_lt hlt
    rw [← ho.answers] at hmore
    omega

theorem Inv.inStep (h : Inv c env t) (hfed : t.closed = false → t.server.Fed env) :
    InStep c env t where
  receives := (c.after_stopped t.got).1.receives
  answers := h.answers
  recorded := h.recorded
  complete hc := (h.opened hc).answers
  matched _ hi := h.matched hi
  unread _ hrc := h.unread hrc
  live := h.live hfed

/-- **Client and server stay in step**, over every run in which no upload is cut short while the
server is open. -/
theorem stays_in_step (h : Reached c env (fun t => t.closed = false → t.server.Fed env) t) :
    InStep c env t := by
  have hinv : Inv c env t ∧ (t.closed = false → t.server.Fed env) := by
    induction h with
    | start hs hfed => exact ⟨.start hs, hfed⟩
    | step _ hstep hfed ih => exact ⟨ih.1.step ih.2 hstep, hfed⟩
  exact hinv.1.inStep hinv.2

end Talk

/-! ## One upload -/

/-- A new client whose files hold `file`. -/
def startWith (file : List Byte) : ClientStart where
  env := newClient
  machine := ⟨none, fun _ => some file, fun _ => none⟩
  stdin := []

/-- Its connection as it is accepted: the header comes in one read and the file in another. -/
def talkWith (text : List Byte) (le : text.length ≤ maxInputLen) (file : List Byte)
    (le' : file.length ≤ maxInputLen) : Talk where
  got := []
  server := plainServer ⟨[.got text le, .got file le'], false⟩
  delivered := 0
  answers := []
  served := 0
  closed := false

/-- Surroundings that know its header. -/
def envWith (text file : List Byte) : Env := plainEnv (loadOnly text (headerDoc .solv file.length))

theorem talkWith_reads {text file : List Byte} (le : text.length ≤ maxInputLen)
    (h0 : (0 : Byte) ∉ text) (hne : text ≠ []) (hshort : text.length < maxInputLen) :
    MessageReads (envWith text file) (headerDoc .solv file.length) [.got text le] := by
  refine ⟨⟨[], _, rfl, by simp, ReadRes.short_got.2 hshort, by decide⟩, ?_, ?_⟩
  · intro r hr
    rw [List.mem_singleton] at hr
    exact ⟨text, le, hr, hne⟩
  · have htext : bytesOf [.got text le] = text := List.append_nil text
    rw [htext, cstr_eq_self h0]
    exact if_pos rfl

theorem Talk.Start.of_upload {text file : List Byte} (le : text.length ≤ maxInputLen)
    (le' : file.length ≤ maxInputLen) (h0 : (0 : Byte) ∉ text) (hne : text ≠ [])
    (hshort : text.length < maxInputLen) (hfile : file ≠ []) :
    (talkWith text le file le').Start (startWith file) (envWith text file) := by
  refine ⟨rfl, ?_, rfl, rfl, rfl, rfl, rfl, rfl, rfl⟩
  have hwrote : (talkWith text le file le').wrote (startWith file) =
      [(headerDoc .solv file.length, file)] := by
    unfold Talk.wrote talkWith
    rw [ClientStart.after_nil rfl rfl]
  rw [hwrote]
  have hdata : ∀ r ∈ [ReadRes.got file le'], r.Delivers := by
    intro r hr
    rw [List.mem_singleton] at hr
    exact ⟨file, le', hr, hfile⟩
  have hbytes : bytesOf [ReadRes.got file le'] = file := List.append_nil file
  exact .cons (p := (headerDoc .solv file.length, file)) (talkWith_reads le h0 hne hshort) hdata
    hbytes .nil

/-- Client and server over an upload of three bytes. -/
theorem stays_in_step_three : ∃ t, t.served = 1 ∧ t.closed = false ∧
    Talk.InStep (startWith [1, 2, 3]) (envWith headerText [1, 2, 3]) t := by
  have hstart := @Talk.Start.of_upload headerText [1, 2, 3] (by decide) (by decide) (by decide)
    (by decide) (by decide) (by decide)
  obtain ⟨sv, hp, hopen, hsock⟩ : ∃ sv, ssdsServerProcess (envWith headerText [1, 2, 3]) 2
      (talkWith headerText (by decide) [1, 2, 3] (by decide)).server = .ok (.ok, sv) ∧
      sv.clientEnd = false ∧ sv.sock.reads = [] := ⟨_, rfl, rfl, rfl⟩
  have hfed : (talkWith headerText (by decide) [1, 2, 3] (by decide)).server.Fed
      (envWith headerText [1, 2, 3]) := by
    refine @Server.Fed.of_short _ [.got headerText (by decide)] [.got [1, 2, 3] (by decide)] _
      .solv [1, 2, 3] (by decide) (talkWith_reads _ (by decide) (by decide) (by decide)) rfl ?_
    refine ⟨?_, rfl, by decide, ?_⟩
    · intro r hr
      rw [List.mem_singleton] at hr
      exact ⟨_, _, hr, by decide⟩
    · intro r hr
      cases hr
      decide
  have hstep := Talk.Step.serve (c := startWith [1, 2, 3]) rfl hp
  refine ⟨_, rfl, ?_, Talk.stays_in_step (.step (.start hstart fun _ => hfed) hstep ?_)⟩
  · rw [hopen]
    rfl
  · exact fun _ => .of_nil hsock

/-- The header `{"code":2,"data":{"read":2000}}`. -/
def blockHeaderText : List Byte :=
  [123, 34, 99, 111, 100, 101, 34, 58, 50, 44, 34, 100, 97, 116, 97, 34, 58, 123, 34, 114, 101, 97,
    100, 34, 58, 50, 48, 48, 48, 125, 125]

/-- A file of exactly one block. -/
def blockFile : List Byte := List.replicate maxInputLen 0

theorem blockFile_length : blockFile.length = maxInputLen := List.length_replicate

/-- **A file of one block stops both sides**: the server reads on after the full read, and the
client waits for the reply. -/
theorem whole_block_deadlocks : ∃ t,
    Talk.Reached (startWith blockFile) (envWith blockHeaderText blockFile) (fun _ => True) t ∧
      t.Deadlock (startWith blockFile) (envWith blockHeaderText blockFile) := by
  have hne : blockFile ≠ [] := by
    rw [← List.length_pos_iff, blockFile_length]
    decide
  refine ⟨talkWith blockHeaderText (by decide) blockFile blockFile_length.le,
    .start (.of_upload _ _ (by decide) (by decide) (by decide) hne) trivial, ?_, rfl, rfl, ?_⟩
  · unfold Talk.Waiting talkWith
    rw [ClientStart.after_nil rfl rfl]
  · have hm : MessageReads (envWith blockHeaderText blockFile) (headerDoc .solv blockFile.length)
        [.got blockHeaderText (by decide)] := talkWith_reads _ (by decide) (by decide) (by decide)
    have hread : ssdsJsRdGetReadBytes (.ofRoot (some (headerDoc .solv blockFile.length))) =
        .ok (blockFile.length : ℤ) :=
      sendFileHeader_readBytes .solv (by rw [blockFile_length]; decide)
    -- the one read of the file is full, and no other comes
    refine (upload_waits_iff hm rfl (sendFileHeader_code .solv blockFile.length) hread rfl).2 ?_
    refine .waits ?_ (by decide)
    intro r hr
    rw [List.mem_singleton] at hr
    rw [hr, ReadRes.short_got, blockFile_length]
    exact lt_irrefl maxInputLen

end Rds
