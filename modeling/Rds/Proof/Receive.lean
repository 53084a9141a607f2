import Rds.Lib.Framing
import Rds.Spec.NetworkUtil
import Mathlib.Data.List.TakeWhile

/-!
# What the receive loops take from a socket

Both loops take the next frame of the socket, a block being one read and short
meaning shorter than `MAX_INPUT_LEN` (`sockRecv_iff`, `sockSolvRecv_iff`). They come
back exactly when there is such a frame and its length does not overflow the `int`
product in the reallocation (`recvLimit`).
-/

namespace Rds

open Framing

/-- The socket as a source of reads. -/
def pull (s : Sock) : Option (ReadRes × Sock) := (ssdsRead s).toOption

/-- The next frame of a socket: reads of full length, then one that is shorter. -/
abbrev SockFrame : Sock → List ReadRes → ReadRes → Sock → Prop := Frame pull ReadRes.Short

/-- A frame with this many full reads overflows `++buff_size*BUFF_SIZE`. -/
def recvLimit : ℕ := 1073741

theorem recvLimit_spec (k : ℕ) : (k + 1) * buffSize < 2 ^ 31 ↔ k < recvLimit := by
  unfold recvLimit buffSize; omega

/-- The count of a frame: full reads count in full, the last one what it returned. -/
def frameRet (g : List ReadRes) (x : ReadRes) : ℤ := maxInputLen * g.length + x.ret

/-- The buffer of a frame: `NULL` when its first read fails. -/
def frameBuf : List ReadRes → ReadRes → Option (List Byte)
  | [], .err => none
  | g, x => some (bytesOf g ++ x.block)

namespace ReadRes

@[simp] theorem block_length (r : ReadRes) : r.block.length = maxInputLen := by
  cases r with
  | err => simp [block, bytes]
  | got bs le => simp [block, bytes]; omega

theorem short_err : Short .err := by show (-1 : ℤ) < (maxInputLen : ℤ); unfold maxInputLen; omega

theorem short_got {bs : List Byte} {le : bs.length ≤ maxInputLen} :
    Short (.got bs le) ↔ bs.length < maxInputLen := by
  show (bs.length : ℤ) < (maxInputLen : ℤ) ↔ _
  omega

/-- A read that does not end a loop is of full length. -/
theorem full_of_not_short {r : ReadRes} (h : ¬ r.Short) :
    r.bytes.length = maxInputLen ∧ r.ret = maxInputLen ∧ r.block = r.bytes := by
  cases r with
  | err => exact absurd short_err h
  | got bs le =>
    rw [short_got] at h
    have hb : bs.length = maxInputLen := by omega
    refine ⟨hb, ?_, ?_⟩
    · simp [ret, hb]
    · simp [block, bytes, hb]

end ReadRes

theorem pull_eq_some {s t : Sock} {r : ReadRes} : pull s = some (r, t) ↔ ssdsRead s = .ok (r, t) := by
  unfold pull
  cases h : ssdsRead s with
  | error e => simp [Except.toOption]
  | ok a => simp [Except.toOption]

/-- One read, as a case split: the next result, or end-of-file from a closed peer. -/
theorem pull_cases {s t : Sock} {r : ReadRes} (h : pull s = some (r, t)) :
    (∃ rs, s.reads = r :: rs ∧ t = { s with reads := rs }) ∨
      (s.reads = [] ∧ s.closed = true ∧ r = .eof ∧ t = s) := by
  rw [pull_eq_some] at h
  unfold ssdsRead at h
  split at h
  · rename_i rs hr; cases h; exact Or.inl ⟨_, hr, rfl⟩
  · rename_i hr
    split at h
    · rename_i hc; cases h; exact Or.inr ⟨hr, hc, rfl, rfl⟩
    · cases h

theorem pull_cons {s : Sock} {r : ReadRes} {rs : List ReadRes} (h : s.reads = r :: rs) :
    pull s = some (r, { s with reads := rs }) := by
  rw [pull_eq_some]; unfold ssdsRead; rw [h]

theorem pull_closed {s : Sock} (h : s.reads = []) (hc : s.closed = true) :
    pull s = some (.eof, s) := by
  rw [pull_eq_some]; unfold ssdsRead; rw [h]; simp [hc]

/-! ## One turn of a receive loop -/

/-- What holds of the loop's variables between two turns: the buffer holds `b` and is
exactly as long as the blocks copied so far. -/
structure RecvLoop.Ok (m : RecvLoop) (b : List Byte) : Prop where
  buffer : m.buffer = some b
  length : b.length = (m.readCount + 1) * maxInputLen
  size : m.buffSz = m.readCount + 1

theorem RecvLoop.init_ok (r : ReadRes) : (RecvLoop.init r).Ok r.block :=
  ⟨rfl, by simp [init], rfl⟩

/-- A turn always reallocates, to exactly one block more. -/
theorem RecvLoop.grow_eq {m : RecvLoop} {b : List Byte} (h : m.Ok b) :
    m.grow = { m with readCount := m.readCount + 1, buffSz := m.readCount + 2,
                      buffer := ssdsRealloc (some b) ((m.readCount + 2) * buffSize) } := by
  unfold grow
  rw [if_pos (by rw [h.size]; unfold maxInputLen buffSize; omega), h.size, h.buffer]

/-- **A turn within the limit** appends the block read. -/
theorem RecvLoop.turn {m : RecvLoop} {b : List Byte} (h : m.Ok b) (r : ReadRes)
    (hl : m.readCount + 1 < recvLimit) :
    ∃ m', m.grow.store r = .ok m' ∧ m'.Ok (b ++ r.block) ∧ m'.readCount = m.readCount + 1 ∧
      m'.retVal = m.retVal + r.ret := by
  have hsz : (m.readCount + 2) * buffSize < 2 ^ 31 := (recvLimit_spec _).2 hl
  have hlen : b.length = (m.readCount + 1) * maxInputLen := h.length
  have hbs : buffSize = maxInputLen := rfl
  rw [grow_eq h]
  unfold store ssdsRealloc memcpy
  have htake : b.take ((m.readCount + 2) * buffSize) = b := by
    apply List.take_of_length_le
    rw [hlen, hbs]; exact Nat.mul_le_mul_right _ (by omega)
  have hgap : (m.readCount + 2) * buffSize - b.length = maxInputLen := by
    rw [hlen, hbs, ← Nat.sub_mul]; simp
  simp only [if_pos hsz, Option.getD_some, htake, hgap]
  rw [if_pos (by simp [hlen])]
  refine ⟨_, rfl, ⟨?_, ?_, rfl⟩, rfl, rfl⟩
  · -- the copy lands exactly on the bytes just gained
    have h1 : (b ++ List.replicate maxInputLen (0 : Byte)).take ((m.readCount + 1) * maxInputLen) = b := by
      rw [← hlen]; simp
    simp only [h1]
    congr 1
    simp [hlen]
  · simp [hlen]; ring

/-- **A turn past the limit** copies to `NULL`. -/
theorem RecvLoop.turn_crash {m : RecvLoop} {b : List Byte} (h : m.Ok b) (r : ReadRes)
    (hl : ¬ m.readCount + 1 < recvLimit) : m.grow.store r = .error .crash := by
  rw [grow_eq h]
  unfold store ssdsRealloc memcpy
  rw [if_neg (by rw [recvLimit_spec]; exact hl)]
  rfl

/-! ## The loops -/

theorem frameRet_cons {r : ReadRes} (hr : ¬ r.Short) (g : List ReadRes) (x : ReadRes) :
    frameRet (r :: g) x = r.ret + frameRet g x := by
  unfold frameRet
  rw [(ReadRes.full_of_not_short hr).2.1, List.length_cons]; push_cast; ring

theorem bytesOf_cons (r : ReadRes) (g : List ReadRes) : bytesOf (r :: g) = r.bytes ++ bytesOf g := rfl

/-- **A loop that comes back has read a frame** short of the limit. -/
theorem recvLoop_frame {closed : Bool} {reads rs : List ReadRes} {m m' : RecvLoop} {b : List Byte}
    (hm : m.Ok b) (h : recvLoop closed reads m = .ok (m', rs)) :
    ∃ g x, SockFrame ⟨reads, closed⟩ g x ⟨rs, closed⟩ ∧ m.readCount + 1 + g.length < recvLimit ∧
      m'.buffer = some (b ++ bytesOf g ++ x.block) ∧ m'.retVal = m.retVal + frameRet g x := by
  induction reads generalizing m b with
  | nil =>
    -- nothing is left: a closed peer still gives one read of 0 bytes
    unfold recvLoop at h
    cases closed with
    | false => cases h
    | true =>
      obtain ⟨m₁, h₁, h₂⟩ := bind_eq_ok.1 h
      by_cases hl : m.readCount + 1 < recvLimit
      · obtain ⟨m₂, hs, hok, -, hret⟩ := RecvLoop.turn hm .eof hl
        rw [hs] at h₁; cases h₁; cases h₂
        refine ⟨[], .eof, .last (pull_closed rfl rfl) (by decide), by simpa using hl, ?_, ?_⟩
        · simpa [bytesOf] using hok.buffer
        · simpa [frameRet] using hret
      · rw [RecvLoop.turn_crash hm _ hl] at h₁; cases h₁
  | cons r reads ih =>
    unfold recvLoop at h
    obtain ⟨m₁, h₁, h₂⟩ := bind_eq_ok.1 h
    -- past the limit the turn would have crashed
    by_cases hl : m.readCount + 1 < recvLimit
    · obtain ⟨m₂, hs, hok, hrc, hret⟩ := RecvLoop.turn hm r hl
      rw [hs] at h₁; cases h₁
      by_cases hr : r.Short
      · rw [if_pos hr] at h₂; cases h₂
        refine ⟨[], r, .last (pull_cons rfl) hr, by simpa using hl, ?_, ?_⟩
        · simpa [bytesOf] using hok.buffer
        · simpa [frameRet] using hret
      · rw [if_neg hr] at h₂
        obtain ⟨g, x, hf, hg, hb, hv⟩ := ih hok h₂
        refine ⟨r :: g, x, .more (pull_cons rfl) hr hf, by rw [hrc] at hg; simp; omega, ?_, ?_⟩
        · rw [hb, bytesOf_cons, (ReadRes.full_of_not_short hr).2.2]; simp
        · rw [hv, hret, frameRet_cons hr]; ring
    · rw [RecvLoop.turn_crash hm _ hl] at h₁; cases h₁

/-- **A frame short of the limit is read** by the loop. -/
theorem recvLoop_of_frame {s t : Sock} {g : List ReadRes} {x : ReadRes} (hf : SockFrame s g x t)
    {m : RecvLoop} {b : List Byte} (hm : m.Ok b) (hl : m.readCount + 1 + g.length < recvLimit) :
    ∃ m', recvLoop s.closed s.reads m = .ok (m', t.reads) ∧
      m'.buffer = some (b ++ bytesOf g ++ x.block) ∧ m'.retVal = m.retVal + frameRet g x := by
  induction hf generalizing m b with
  | @last s x t hp hx =>
    obtain ⟨m', hs, hok, -, hret⟩ := RecvLoop.turn hm x (by simpa using hl)
    refine ⟨m', ?_, by simpa [bytesOf] using hok.buffer, by simpa [frameRet] using hret⟩
    -- a short read ends the loop, be it data or the end of the stream
    rcases pull_cases hp with ⟨rs, hr, rfl⟩ | ⟨hr, hc, rfl, rfl⟩
    · rw [hr]; unfold recvLoop; rw [hs]; simp [bind, Except.bind, hx, pure, Except.pure]
    · rw [hr, hc]; unfold recvLoop; rw [hs]; rfl
  | @more s r u g x t hp hr _ ih =>
    obtain ⟨m₁, hs, hok, hrc, hret⟩ := RecvLoop.turn hm r (by simp at hl; omega)
    obtain ⟨m', h', hb, hv⟩ := ih hok (by rw [hrc]; simp at hl; omega)
    rcases pull_cases hp with ⟨rs, hrs, rfl⟩ | ⟨-, -, rfl, -⟩
    · refine ⟨m', ?_, ?_, ?_⟩
      · rw [hrs]; unfold recvLoop; rw [hs]; simpa [bind, Except.bind, hr] using h'
      · rw [hb, bytesOf_cons, (ReadRes.full_of_not_short hr).2.2]; simp
      · rw [hv, hret, frameRet_cons hr]; ring
    · exact absurd (by decide) hr

/-- The same connection, read on. -/
structure Sock.Rest (s t : Sock) : Prop where
  reads : t.reads <:+ s.reads
  closed : t.closed = s.closed

theorem Sock.Rest.refl (s : Sock) : s.Rest s := ⟨List.suffix_rfl, rfl⟩

theorem Sock.Rest.trans {s t u : Sock} (h : s.Rest t) (h' : t.Rest u) : s.Rest u :=
  ⟨h'.reads.trans h.reads, h'.closed.trans h.closed⟩

/-- What is left to come is an end of what was to come. -/
theorem Sock.Rest.bytes {s t : Sock} (h : s.Rest t) :
    ∃ p, bytesOf s.reads = p ++ bytesOf t.reads := by
  obtain ⟨p, hp⟩ := h.reads
  exact ⟨bytesOf p, by rw [← hp]; exact List.flatMap_append⟩

theorem SockFrame.rest {s t : Sock} {g : List ReadRes} {x : ReadRes} (h : SockFrame s g x t) :
    s.Rest t := by
  have hP : ∀ u b v, pull u = some (b, v) → s.Rest u → s.Rest v := by
    intro u b v hp hu
    rcases pull_cases hp with ⟨rs, hr, rfl⟩ | ⟨-, -, -, rfl⟩
    · exact hu.trans ⟨by rw [hr]; exact List.suffix_cons _ _, rfl⟩
    · exact hu
  exact Frame.preserve hP h (.refl s)

/-- These reads are one frame within the limit: full ones, then one that is shorter. -/
def IsFrame (h : List ReadRes) : Prop :=
  ∃ g x, h = g ++ [x] ∧ (∀ r ∈ g, ¬ r.Short) ∧ x.Short ∧ g.length < recvLimit

/-- Full reads and a shorter one are the next frame. -/
theorem SockFrame.of_reads {g : List ReadRes} {x : ReadRes} (hg : ∀ r ∈ g, ¬ r.Short)
    (hx : x.Short) (rest : List ReadRes) (c : Bool) :
    SockFrame ⟨g ++ x :: rest, c⟩ g x ⟨rest, c⟩ := by
  induction g with
  | nil => exact .last (pull_cons rfl) hx
  | cons r g ih =>
    refine .more (pull_cons rfl) (hg r List.mem_cons_self) ?_
    exact ih fun b hb => hg b (List.mem_cons_of_mem _ hb)

/-- **A frame is the front of the reads to come**, or the last of them and an end-of-file. -/
theorem SockFrame.reads_eq {s t : Sock} {g : List ReadRes} {x : ReadRes} (h : SockFrame s g x t) :
    s.reads = g ++ x :: t.reads ∨ (s.closed = true ∧ s.reads = g ∧ x = .eof ∧ t.reads = []) := by
  induction h with
  | last hp hx =>
    rcases pull_cases hp with ⟨rs, hr, rfl⟩ | ⟨hr, hc, rfl, rfl⟩
    · exact Or.inl hr
    · exact Or.inr ⟨hc, hr, rfl, hr⟩
  | more hp hb _ ih =>
    rcases pull_cases hp with ⟨rs, hr, rfl⟩ | ⟨-, -, rfl, -⟩
    · rcases ih with hi | ⟨hc, hi, hx, ht⟩
      · exact Or.inl (by rw [hr]; simp only at hi; rw [hi]; rfl)
      · exact Or.inr ⟨hc, by rw [hr]; simp only at hi; rw [hi], hx, ht⟩
    · exact absurd (by decide) hb

/-- **What `sock_solv_recv` takes from a socket.** -/
theorem sockSolvRecv_iff {s t : Sock} {n : ℤ} {buf : Option (List Byte)} :
    sockSolvRecv s = .ok ((n, buf), t) ↔
      ∃ g x, SockFrame s g x t ∧ g.length < recvLimit ∧ n = frameRet g x ∧ buf = frameBuf g x := by
  constructor
  · intro h
    unfold sockSolvRecv at h
    obtain ⟨⟨r, u⟩, hr, h⟩ := bind_eq_ok.1 h
    have hp := pull_eq_some.2 hr
    cases r with
    | err =>
      cases h
      exact ⟨[], .err, .last hp ReadRes.short_err, by decide, by simp [frameRet, ReadRes.ret], rfl⟩
    | got bs le =>
      simp only at h
      split at h
      · rename_i hbs
        -- a first read of full length starts the loop
        have hfull : ¬ (ReadRes.got bs le).Short := by rw [ReadRes.short_got]; omega
        obtain ⟨⟨m', rs⟩, hm', h⟩ := bind_eq_ok.1 h
        cases h
        obtain ⟨g, x, hf, hg, hb, hv⟩ := recvLoop_frame (RecvLoop.init_ok _) hm'
        refine ⟨.got bs le :: g, x, .more hp hfull hf, ?_, ?_, ?_⟩
        · simp only [RecvLoop.init] at hg; simp; omega
        · rw [hv, frameRet_cons hfull]; rfl
        · rw [hb, (ReadRes.full_of_not_short hfull).2.2]; simp [frameBuf, bytesOf_cons]
      · rename_i hbs
        -- a shorter one is the whole frame
        cases h
        refine ⟨[], .got bs le, .last hp (by rw [ReadRes.short_got]; omega), by decide, ?_, rfl⟩
        simp [frameRet]
  · rintro ⟨g, x, hf, hl, rfl, rfl⟩
    unfold sockSolvRecv
    cases hf with
    | last hp hx =>
      rw [pull_eq_some.1 hp]
      cases x with
      | err => simp [bind, Except.bind, frameRet, ReadRes.ret, frameBuf, pure, Except.pure]
      | got bs le =>
        rw [ReadRes.short_got] at hx
        simp [bind, Except.bind, frameRet, ReadRes.ret, frameBuf, pure, Except.pure, bytesOf, hx.ne]
    | @more _ r u g _ _ hp hr hf =>
      obtain ⟨m', hm', hb, hv⟩ := recvLoop_of_frame hf (RecvLoop.init_ok r)
        (by simp [RecvLoop.init] at hl ⊢; omega)
      rw [pull_eq_some.1 hp]
      cases r with
      | err => exact absurd ReadRes.short_err hr
      | got bs le =>
        have hbs : bs.length = maxInputLen := (ReadRes.full_of_not_short hr).1
        simp only [bind, Except.bind, if_pos hbs, hm', pure, Except.pure]
        rw [hb, hv, frameRet_cons hr, (ReadRes.full_of_not_short hr).2.2, ← (SockFrame.rest hf).closed]
        simp [frameBuf, bytesOf_cons, RecvLoop.init]

/-- `sock_recv` is `sock_solv_recv` without the count. -/
theorem sockRecv_eq (s : Sock) :
    sockRecv s = (sockSolvRecv s).map fun p => (p.1.2, p.2) := by
  unfold sockRecv sockSolvRecv
  cases ssdsRead s with
  | error e => rfl
  | ok p =>
    obtain ⟨r, u⟩ := p
    cases r with
    | err => rfl
    | got bs le =>
      simp only [bind, Except.bind]
      split
      · cases recvLoop u.closed u.reads (.init (.got bs le)) <;> rfl
      · rfl

/-- **What `sock_recv` takes from a socket.** -/
theorem sockRecv_iff {s t : Sock} {buf : Option (List Byte)} :
    sockRecv s = .ok (buf, t) ↔
      ∃ g x, SockFrame s g x t ∧ g.length < recvLimit ∧ buf = frameBuf g x := by
  rw [sockRecv_eq]
  constructor
  · intro h
    cases hs : sockSolvRecv s with
    | error e => rw [hs] at h; cases h
    | ok p =>
      obtain ⟨⟨n, b⟩, u⟩ := p
      rw [hs] at h; cases h
      obtain ⟨g, x, hf, hl, -, hb⟩ := sockSolvRecv_iff.1 hs
      exact ⟨g, x, hf, hl, hb⟩
  · rintro ⟨g, x, hf, hl, rfl⟩
    rw [sockSolvRecv_iff.2 ⟨g, x, hf, hl, rfl, rfl⟩]
    rfl

/-! ## The bytes of a frame -/

/-- **No byte is lost or repeated**: a frame carries the front of what is to come. -/
theorem SockFrame.content {s t : Sock} {g : List ReadRes} {x : ReadRes} (h : SockFrame s g x t) :
    bytesOf s.reads = bytesOf g ++ x.bytes ++ bytesOf t.reads := by
  have hrest : ∀ u b v, pull u = some (b, v) → bytesOf u.reads = b.bytes ++ bytesOf v.reads := by
    intro u b v hp
    rcases pull_cases hp with ⟨rs, hr, rfl⟩ | ⟨hr, -, rfl, rfl⟩
    · simp [hr, bytesOf_cons]
    · simp [ReadRes.eof, ReadRes.bytes]
  exact Frame.content hrest h

theorem bytesOf_full_length {g : List ReadRes} (hg : ∀ r ∈ g, ¬ r.Short) :
    (bytesOf g).length = maxInputLen * g.length := by
  induction g with
  | nil => rfl
  | cons r g ih =>
    have hr := (ReadRes.full_of_not_short (hg r List.mem_cons_self)).1
    rw [bytesOf_cons, List.length_append, hr, ih fun b hb => hg b (List.mem_cons_of_mem _ hb),
      List.length_cons]
    ring

theorem cstr_append_zeros (a : List Byte) (k : ℕ) : cstr (a ++ List.replicate k 0) = cstr a := by
  unfold cstr
  induction a with
  | nil => cases k <;> simp [List.replicate_succ]
  | cons c a ih =>
    simp only [List.cons_append, List.takeWhile_cons, ih]

theorem cstr_eq_self {a : List Byte} (h : (0 : Byte) ∉ a) : cstr a = a := by
  unfold cstr
  rw [List.takeWhile_eq_self_iff]
  intro b hb
  have : b ≠ 0 := fun hb0 => h (hb0 ▸ hb)
  simpa using this

/-- The buffer of a frame is its bytes and then zeros. -/
theorem frameBuf_eq {g : List ReadRes} {x : ReadRes} {b : List Byte} (h : frameBuf g x = some b) :
    b = bytesOf g ++ x.bytes ++ List.replicate (maxInputLen - x.bytes.length) 0 := by
  unfold frameBuf at h
  split at h
  · cases h
  · cases h; simp [ReadRes.block]

/-- The text a reader of the buffer sees. -/
theorem cstr_frameBuf {g : List ReadRes} {x : ReadRes} {b : List Byte} (h : frameBuf g x = some b) :
    cstr b = cstr (bytesOf g ++ x.bytes) := by
  rw [frameBuf_eq h, cstr_append_zeros]

end Rds
