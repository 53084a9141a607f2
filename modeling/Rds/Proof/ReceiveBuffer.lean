import Rds.Proof.Leak

/-!
# The buffers of a receive

Both receive functions, with all the memory they ask for.

* `sockRecv_ne_crash`, `sockSolvRecv_ne_crash`: no copy goes beyond its buffer.
* `recvLoop_served`: the loop keeps two blocks, the one it reads into and the buffer.
* `receive_buffers`: what a receive returns, and what it leaves behind.
* `received_count_iff`: when its count is that of the bytes it took.
-/

namespace Rds

/-! ## Copies -/

/-- The copy in front of the loop. -/
theorem memcpy_first (r : ReadRes) :
    memcpy (some (List.replicate buffSize 0)) 0 r.block = .ok r.block := by
  have hlen : r.block.length = buffSize := r.block_length
  have hdrop : (List.replicate buffSize (0 : Byte)).drop (0 + r.block.length) = [] := by
    rw [hlen]
    simp
  unfold memcpy
  simp only
  rw [if_pos (by simp [hlen]), hdrop]
  simp

theorem recvLimit_of_bytes {n : ℕ} (h : maxInputLen * (n + 1) < 2 ^ 31 - 4000) :
    n + 1 < recvLimit := by
  unfold maxInputLen at h
  unfold recvLimit
  omega

/-- **No copy of the loop goes beyond the buffer** as long as the sizes fit an `int`. -/
theorem recvLoop_ne_crash {closed : Bool} {reads : List ReadRes} :
    ∀ {m : RecvLoop} {b : List Byte}, m.Ok b →
      maxInputLen * (m.readCount + 1) + (bytesOf reads).length < 2 ^ 31 - 4000 →
      recvLoop closed reads m ≠ .error .crash := by
  induction reads with
  | nil =>
    intro m b hm hl
    unfold recvLoop
    cases closed with
    | false => simp
    | true =>
      have hlimit : m.readCount + 1 < recvLimit := recvLimit_of_bytes (by omega)
      obtain ⟨m', hs, -, -, -⟩ := RecvLoop.turn hm .eof hlimit
      rw [if_pos rfl, hs]
      simp [bind, Except.bind, pure, Except.pure]
  | cons r reads ih =>
    intro m b hm hl
    have hlimit : m.readCount + 1 < recvLimit := recvLimit_of_bytes (by omega)
    obtain ⟨m', hs, hok, hcount, -⟩ := RecvLoop.turn hm r hlimit
    unfold recvLoop
    rw [hs]
    by_cases hr : r.Short
    · simp [bind, Except.bind, pure, Except.pure, hr]
    · simp only [bind, Except.bind, if_neg hr]
      -- a full read moves as many bytes from the reads to come to those that were read
      refine ih hok ?_
      have hfull := (ReadRes.full_of_not_short hr).1
      rw [bytesOf_cons, List.length_append, hfull] at hl
      rw [hcount]
      have hmul : maxInputLen * (m.readCount + 1 + 1) = maxInputLen * (m.readCount + 1) + maxInputLen := by
        ring
      omega

theorem sockSolvRecv_ne_crash {s : Sock} (h : (bytesOf s.reads).length < 2 ^ 31 - 4000) :
    sockSolvRecv s ≠ .error .crash := by
  unfold sockSolvRecv ssdsRead
  cases hs : s.reads with
  | nil => cases hc : s.closed <;> simp [bind, Except.bind, ReadRes.eof, maxInputLen, pure, Except.pure]
  | cons r reads =>
    rw [hs, bytesOf_cons, List.length_append] at h
    cases r with
    | err => simp [bind, Except.bind, pure, Except.pure]
    | got bs le =>
      simp only [bind, Except.bind]
      by_cases hbs : bs.length = maxInputLen
      · have hlen : (ReadRes.got bs le).bytes.length = maxInputLen := hbs
        have hloop := @recvLoop_ne_crash s.closed reads _ _ (RecvLoop.init_ok (.got bs le))
          (by simp only [RecvLoop.init]; omega)
        rw [if_pos hbs]
        cases hrun : recvLoop s.closed reads (.init (.got bs le)) with
        | error e =>
          rw [hrun] at hloop
          simpa using hloop
        | ok p => simp [pure, Except.pure]
      · rw [if_neg hbs]
        simp [pure, Except.pure]

theorem sockRecv_ne_crash {s : Sock} (h : (bytesOf s.reads).length < 2 ^ 31 - 4000) :
    sockRecv s ≠ .error .crash := by
  have hsolv := sockSolvRecv_ne_crash h
  rw [sockRecv_eq]
  cases hrun : sockSolvRecv s with
  | error e =>
    rw [hrun] at hsolv
    simpa [Except.map] using hsolv
  | ok p => simp [Except.map]

namespace Collected

open Instrument

variable {sys : System} {res : Resources} {base calls : List GcCall} {n : ℕ} {r b : Address}

/-! ## Allocations that succeed -/

/-- **The system serves the next `n` requests** for memory, whatever they are, with blocks that are
not in use. -/
def Serves (sys : System) (res : Resources) : ℕ → List GcCall → Prop
  | 0, _ => True
  | n + 1, calls =>
    (∃ p block, sys.malloc calls = some p ∧ sys.item calls = some block ∧
      p ∉ (after res calls).ptrs ∧
      ∀ size, Serves sys res n (calls ++ [.malloc size (some p) (some block)])) ∧
    ∀ old, ∃ p block, sys.realloc calls old = some p ∧ sys.item calls = some block ∧
      (p ≠ old → p ∉ (after res calls).ptrs) ∧
      ∀ size, Serves sys res n (calls ++ [.realloc old size (some p) (some block)])

theorem Serves.less : ∀ {n : ℕ} {calls : List GcCall}, Serves sys res (n + 1) calls →
    Serves sys res n calls := by
  intro n
  induction n with
  | zero => exact fun _ => trivial
  | succ n ih =>
    intro calls h
    obtain ⟨⟨p, block, hp, hitem, hfresh, hmalloc⟩, hrealloc⟩ := h
    refine ⟨⟨p, block, hp, hitem, hfresh, fun size => ih (hmalloc size)⟩, ?_⟩
    intro old
    obtain ⟨q, block', hq, hitem', hfresh', hnext⟩ := hrealloc old
    exact ⟨q, block', hq, hitem', hfresh', fun size => ih (hnext size)⟩

theorem malloc_served (h : Serves sys res (n + 1) calls) (size : ℤ) :
    ∃ p calls', (malloc sys size).run calls = some (p, calls') ∧ p ∉ (after res calls).ptrs ∧
      Serves sys res n calls' := by
  obtain ⟨p, block, hp, hitem, hfresh, hnext⟩ := h.1
  refine ⟨p, calls ++ [.malloc size (some p) (some block)], ?_, hfresh, hnext size⟩
  refine run_bind_eq_some.2 ⟨calls, calls, rfl, ?_⟩
  rw [hp, hitem]
  rfl

theorem realloc_served (h : Serves sys res (n + 1) calls) (old : Address) (size : ℤ) :
    ∃ p block calls', (realloc sys old size).run calls = some (p, calls') ∧
      calls' = calls ++ [.realloc old size (some p) (some block)] ∧
      (p ≠ old → p ∉ (after res calls).ptrs) ∧ Serves sys res n calls' := by
  obtain ⟨p, block, hp, hitem, hfresh, hnext⟩ := h.2 old
  refine ⟨p, block, _, ?_, rfl, hfresh, hnext size⟩
  refine run_bind_eq_some.2 ⟨calls, calls, rfl, ?_⟩
  have hgranted : ¬ (p ≠ old ∧ some block = none) := by simp
  rw [hp, hitem]
  simp only [if_neg hgranted]
  rfl

/-! ## The two blocks of the loop -/

/-- **The blocks of a receive** that has both: the one it reads into and the buffer, and what was
there before. -/
structure TwoBlocks (res : Resources) (base calls : List GcCall) (r b : Address) : Prop where
  only : after res calls = { after res base with ptrs := insert b (insert r (after res base).ptrs) }
  reply : r ∉ (after res base).ptrs
  buffer : b ∉ insert r (after res base).ptrs

/-- What a receive has once it has given its first block back. -/
structure OneBlock (res : Resources) (base calls : List GcCall) (b : Address) : Prop where
  only : after res calls = { after res base with ptrs := insert b (after res base).ptrs }
  fresh : b ∉ (after res base).ptrs

theorem TwoBlocks.start (h : OneBlock res base calls r) {size : ℤ} {calls' : List GcCall}
    (hb : (malloc sys size).run calls = some (b, calls')) (hfresh : b ∉ (after res calls).ptrs) :
    TwoBlocks res base calls' r b := by
  rw [h.only] at hfresh
  refine ⟨?_, h.fresh, hfresh⟩
  rw [malloc_after res hb, h.only]

/-- **A buffer that moves** takes the place of the old one. -/
theorem TwoBlocks.realloc (h : TwoBlocks res base calls r b) {b' : Address} {size : ℤ}
    {block : Address × AllocData} (hfresh : b' ≠ b → b' ∉ (after res calls).ptrs) :
    TwoBlocks res base (calls ++ [.realloc b size (some b') (some block)]) r b' := by
  by_cases hmoved : b' = b
  · subst hmoved
    refine ⟨?_, h.reply, h.buffer⟩
    have hsame : (GcCall.realloc b' size (some b') (some block)).resources (after res calls) =
        after res calls := if_neg fun hne => hne rfl
    rw [after_concat, hsame]
    exact h.only
  · have hnew : b' ∉ (after res calls).ptrs := hfresh hmoved
    have hmove : (GcCall.realloc b size (some b') (some block)).resources (after res calls) =
        { after res calls with ptrs := insert b' ((after res calls).ptrs.erase b) } := if_pos hmoved
    refine ⟨?_, h.reply, ?_⟩
    · rw [after_concat, hmove, h.only]
      simp only [Finset.erase_insert h.buffer]
    · rw [h.only] at hnew
      exact fun hmem => hnew (Finset.mem_insert_of_mem hmem)

theorem TwoBlocks.finish (h : TwoBlocks res base calls r b) :
    OneBlock res base (calls ++ [.free r]) b := by
  have hne : b ≠ r := fun heq => h.buffer (by rw [heq]; exact Finset.mem_insert_self _ _)
  refine ⟨?_, fun hmem => h.buffer (Finset.mem_insert_of_mem hmem)⟩
  rw [after_concat, h.only]
  simp only [GcCall.resources, Finset.erase_insert_of_ne hne, Finset.erase_insert h.reply]

theorem growBlock_served (hs : Serves sys res (n + 1) calls) (h : TwoBlocks res base calls r b)
    (m : RecvLoop) : ∃ b' calls', (growBlock sys m b).run calls = some (b', calls') ∧
      TwoBlocks res base calls' r b' ∧ Serves sys res n calls' := by
  unfold growBlock
  split
  · obtain ⟨b', block, calls', hrun, rfl, hfresh, hnext⟩ := realloc_served hs b
      ((m.buffSz + 1) * buffSize : ℕ)
    exact ⟨b', _, hrun, h.realloc hfresh, hnext⟩
  · exact ⟨b, calls, rfl, h, hs.less⟩

/-- **The loop with all the memory it asks for**: one block for each read, and one for the end of
a closed stream. -/
theorem recvLoop_served {closed : Bool} {reads rs : List ReadRes} {m' : RecvLoop} :
    ∀ {n : ℕ} {calls : List GcCall} {m : RecvLoop} {b : Address}, reads.length + 1 ≤ n →
      Serves sys res n calls → TwoBlocks res base calls r b →
      Rds.recvLoop closed reads m = .ok (m', rs) →
      ∃ b' calls', (recvLoop sys closed reads m b).run calls = some (((m', rs), b'), calls') ∧
        TwoBlocks res base calls' r b' := by
  induction reads with
  | nil =>
    intro n calls m b hn hs h hrun
    obtain ⟨n, rfl⟩ : ∃ k, n = k + 1 := ⟨n - 1, by omega⟩
    unfold Rds.recvLoop at hrun
    cases closed with
    | false => cases hrun
    | true =>
      obtain ⟨m₁, hstore, hrun⟩ := bind_eq_ok.1 hrun
      cases hrun
      obtain ⟨b', calls', hgrow, h', -⟩ := growBlock_served hs h m
      refine ⟨b', calls', ?_, h'⟩
      unfold recvLoop
      rw [if_pos rfl]
      refine run_bind_eq_some.2 ⟨b', calls', hgrow, ?_⟩
      exact run_bind_eq_some.2 ⟨m', calls', run_lift_eq_some.2 ⟨hstore, rfl⟩, rfl⟩
  | cons x reads ih =>
    intro n calls m b hn hs h hrun
    rw [List.length_cons] at hn
    obtain ⟨n, rfl⟩ : ∃ k, n = k + 1 := ⟨n - 1, by omega⟩
    unfold Rds.recvLoop at hrun
    obtain ⟨m₁, hstore, hrun⟩ := bind_eq_ok.1 hrun
    obtain ⟨b₁, calls₁, hgrow, h₁, hs₁⟩ := growBlock_served hs h m
    have hplain : (plain (m.grow.store x)).run calls₁ = some (m₁, calls₁) :=
      run_lift_eq_some.2 ⟨hstore, rfl⟩
    by_cases hx : x.Short
    · rw [if_pos hx] at hrun
      cases hrun
      refine ⟨b₁, calls₁, ?_, h₁⟩
      unfold recvLoop
      refine run_bind_eq_some.2 ⟨b₁, calls₁, hgrow, ?_⟩
      refine run_bind_eq_some.2 ⟨m', calls₁, hplain, ?_⟩
      rw [if_pos hx]
      rfl
    · rw [if_neg hx] at hrun
      obtain ⟨b', calls', hloop, h'⟩ := ih (by omega) hs₁ h₁ hrun
      refine ⟨b', calls', ?_, h'⟩
      unfold recvLoop
      refine run_bind_eq_some.2 ⟨b₁, calls₁, hgrow, ?_⟩
      refine run_bind_eq_some.2 ⟨m₁, calls₁, hplain, ?_⟩
      rw [if_neg hx]
      exact hloop

/-! ## The two functions -/

/-- A block that is given back leaves nothing. -/
theorem OneBlock.free (h : OneBlock res base calls r) :
    after res (calls ++ [.free r]) = after res base := by
  rw [after_concat, h.only]
  simp only [GcCall.resources, Finset.erase_insert h.fresh]

/-- The blocks a receive starts with. -/
theorem blocks_served (hs : Serves sys res (n + 2) calls) (size size' : ℤ) :
    ∃ r calls₁ b calls₂, (malloc sys size).run calls = some (r, calls₁) ∧
      OneBlock res calls calls₁ r ∧ (malloc sys size').run calls₁ = some (b, calls₂) ∧
      TwoBlocks res calls calls₂ r b ∧ Serves sys res n calls₂ := by
  obtain ⟨r, calls₁, hr, hfresh, hs₁⟩ := malloc_served hs size
  obtain ⟨b, calls₂, hb, hfresh', hs₂⟩ := malloc_served hs₁ size'
  have hone : OneBlock res calls calls₁ r := ⟨malloc_after res hr, hfresh⟩
  exact ⟨r, calls₁, b, calls₂, hr, hone, hb, .start hone hb hfresh', hs₂⟩

/-- The first read fails, and it is the only one. -/
def FirstFails (g : List ReadRes) (x : ReadRes) : Prop := g = [] ∧ x = .err

/-- **The buffer that is left**: the bytes of the reads, then zeros, in the only block that is left
of those the receive allocated. -/
structure BufferLeft (res : Resources) (base calls : List GcCall) (g : List ReadRes) (x : ReadRes)
    (b : Address) (content : Option (List Byte)) : Prop where
  block : OneBlock res base calls b
  content : ∃ k, 0 < k ∧ content = some (bytesOf g ++ x.bytes ++ List.replicate k 0)

/-- What the buffer of a frame holds ends with a zero at least. -/
theorem exists_zeros {x : ReadRes} (hx : x.Short) (front : List Byte) :
    ∃ k, 0 < k ∧ front ++ x.block = front ++ x.bytes ++ List.replicate k 0 := by
  refine ⟨maxInputLen - x.bytes.length, ?_, ?_⟩
  · cases x with
    | err => decide
    | got bs le =>
      have hlt : bs.length < maxInputLen := ReadRes.short_got.1 hx
      have hbytes : (ReadRes.got bs le).bytes = bs := rfl
      rw [hbytes]
      omega
  · rw [List.append_assoc]
    rfl

variable {s t u : Sock} {g : List ReadRes} {x y : ReadRes}

theorem not_firstFails_got (bs : List Byte) (le : bs.length ≤ maxInputLen) :
    ¬ FirstFails [] (.got bs le) := by
  intro h
  cases h.2

theorem not_firstFails_cons (y : ReadRes) (g : List ReadRes) (x : ReadRes) :
    ¬ FirstFails (y :: g) x := fun h => List.cons_ne_nil y g h.1

/-- A read asks for no memory. -/
theorem run_read (hp : pull s = some (y, u)) (calls : List GcCall) :
    (plain (ssdsRead s)).run calls = some ((y, u), calls) :=
  run_lift_eq_some.2 ⟨pull_eq_some.1 hp, rfl⟩

/-- A short read alone is left in the block it went to. -/
theorem OneBlock.left (h : OneBlock res base calls r) (hx : x.Short) :
    BufferLeft res base calls [] x r (some x.block) := by
  obtain ⟨k, hk, hzeros⟩ := exists_zeros hx []
  exact ⟨h, k, hk, congrArg some hzeros⟩

/-- **A first read of full length** and the loop behind it. -/
theorem frame_served (hp : pull s = some (y, u)) (hy : ¬ y.Short) (hf : SockFrame u g x t)
    (hlimit : (y :: g).length < recvLimit) (hs : Serves sys res (s.reads.length + 1) calls)
    (h : TwoBlocks res base calls r b) :
    ∃ m' b' calls', (recvLoop sys u.closed u.reads (.init y) b).run calls =
        some (((m', t.reads), b'), calls') ∧
      BufferLeft res base (calls' ++ [.free r]) (y :: g) x b' m'.buffer := by
  rw [List.length_cons] at hlimit
  obtain ⟨m', hloop, hbuffer, -⟩ := recvLoop_of_frame hf (RecvLoop.init_ok y)
    (by simp only [RecvLoop.init]; omega)
  have hreads : u.reads.length + 1 ≤ s.reads.length + 1 := by
    rcases pull_cases hp with ⟨rs, hrs, rfl⟩ | ⟨-, -, -, rfl⟩
    · rw [hrs, List.length_cons]
      simp only
      omega
    · omega
  obtain ⟨b', calls', hrun, htwo⟩ := recvLoop_served hreads hs h hloop
  obtain ⟨k, hk, hzeros⟩ := exists_zeros hf.short_last (bytesOf (y :: g))
  rw [(ReadRes.full_of_not_short hy).2.2, ← bytesOf_cons, hzeros] at hbuffer
  exact ⟨m', b', calls', hrun, htwo.finish, k, hk, hbuffer⟩

section
variable {A : Type} {fails : Address → A} {first : ReadRes → Address → A}
  {more : RecvLoop → Address → A}

/-- What the two functions have in common. They return `fails` if the first read fails, `first` if
it is short, and `more` behind the loop. -/
def receiveWith (sys : System) (s : Sock) (fails : Address → A) (first : ReadRes → Address → A)
    (more : RecvLoop → Address → A) : GcM (A × Sock) := do
  let p ← malloc sys maxInputLen
  let (r, s) ← plain (ssdsRead s)
  match r with
  | .err =>
    free p
    return (fails p, s)
  | .got bs _ =>
    if bs.length = maxInputLen then do
      let b ← malloc sys buffSize
      let ((m, rs), b) ← recvLoop sys s.closed s.reads (.init r) b
      free p
      return (more m b, { s with reads := rs })
    else return (first r p, s)

theorem sockRecv_eq (sys : System) (s : Sock) : sockRecv sys s =
    receiveWith sys s (fun _ => none) (fun r p => some (p, some r.block))
      (fun m p => some (p, m.buffer)) := rfl

theorem sockSolvRecv_eq (sys : System) (s : Sock) : sockSolvRecv sys s =
    receiveWith sys s (fun p => (-1, p, none)) (fun r p => (r.ret, p, some r.block))
      (fun m p => (m.retVal, p, m.buffer)) := rfl

/-- **A receive, with all the memory it asks for.** `P` is what a result says of the buffer. -/
theorem receiveWith_served {recv : GcM (A × Sock)} (hrecv : recv = receiveWith sys s fails first more)
    {P : A → Address → Option (List Byte) → Prop}
    (hfirst : ∀ r p, P (first r p) p (some r.block)) (hmore : ∀ m p, P (more m p) p m.buffer)
    (hs : Serves sys res (s.reads.length + 3) calls) (hf : SockFrame s g x t)
    (hlimit : g.length < recvLimit) :
    ∃ a calls', recv.run calls = some ((a, t), calls') ∧
      (FirstFails g x ∧ (∃ p, a = fails p) ∧ after res calls' = after res calls ∨
        ¬ FirstFails g x ∧ ∃ p content, P a p content ∧
          BufferLeft res calls calls' g x p content) := by
  rw [hrecv]
  obtain ⟨r, calls₁, b, calls₂, hr, hone, hb, htwo, hs₂⟩ := blocks_served hs maxInputLen buffSize
  cases hf with
  | last hp hx =>
    cases x with
    | err =>
      refine ⟨fails r, calls₁ ++ [.free r], ?_, Or.inl ⟨⟨rfl, rfl⟩, ⟨r, rfl⟩, hone.free⟩⟩
      refine run_bind_eq_some.2 ⟨r, calls₁, hr, ?_⟩
      exact run_bind_eq_some.2 ⟨_, calls₁, run_read hp calls₁, rfl⟩
    | got bs le =>
      have hbs : bs.length ≠ maxInputLen := Nat.ne_of_lt (ReadRes.short_got.1 hx)
      have hok := not_firstFails_got bs le
      refine ⟨_, calls₁, ?_, Or.inr ⟨hok, r, _, hfirst (.got bs le) r, hone.left hx⟩⟩
      refine run_bind_eq_some.2 ⟨r, calls₁, hr, ?_⟩
      refine run_bind_eq_some.2 ⟨_, calls₁, run_read hp calls₁, ?_⟩
      simp only [if_neg hbs]
      rfl
  | @more _ y u g _ _ hp hy hf =>
    obtain ⟨m', b', calls', hrun, hleft⟩ := frame_served hp hy hf hlimit hs₂ htwo
    cases y with
    | err => exact absurd ReadRes.short_err hy
    | got bs le =>
      have hbs : bs.length = maxInputLen := (ReadRes.full_of_not_short hy).1
      have hok := not_firstFails_cons (.got bs le) g x
      refine ⟨_, calls' ++ [.free r], ?_, Or.inr ⟨hok, b', _, hmore m' b', hleft⟩⟩
      refine run_bind_eq_some.2 ⟨r, calls₁, hr, ?_⟩
      refine run_bind_eq_some.2 ⟨_, calls₁, run_read hp calls₁, ?_⟩
      simp only [if_pos hbs]
      refine run_bind_eq_some.2 ⟨b, calls₂, hb, ?_⟩
      refine run_bind_eq_some.2 ⟨_, calls', hrun, ?_⟩
      rw [← (SockFrame.rest hf).closed]
      rfl

end

/-- `sock_recv`: its result is the buffer. -/
theorem sockRecv_served (hs : Serves sys res (s.reads.length + 3) calls) (hf : SockFrame s g x t)
    (hlimit : g.length < recvLimit) :
    ∃ buf calls', (sockRecv sys s).run calls = some ((buf, t), calls') ∧
      (FirstFails g x ∧ buf = none ∧ after res calls' = after res calls ∨
        ¬ FirstFails g x ∧ ∃ p content, buf = some (p, content) ∧
          BufferLeft res calls calls' g x p content) := by
  obtain ⟨buf, calls', hrun, hleft⟩ := receiveWith_served (sockRecv_eq sys s)
    (P := fun buf p content => buf = some (p, content)) (fun _ _ => rfl) (fun _ _ => rfl) hs hf hlimit
  refine ⟨buf, calls', hrun, hleft.imp_left ?_⟩
  intro ⟨hfails, ⟨_, hnone⟩, hfreed⟩
  exact ⟨hfails, hnone, hfreed⟩

/-- `sock_solv_recv`: its result has a count as well. -/
theorem sockSolvRecv_served (hs : Serves sys res (s.reads.length + 3) calls)
    (hf : SockFrame s g x t) (hlimit : g.length < recvLimit) :
    ∃ ret p content calls', (sockSolvRecv sys s).run calls = some (((ret, p, content), t), calls') ∧
      (FirstFails g x ∧ ret = -1 ∧ after res calls' = after res calls ∨
        ¬ FirstFails g x ∧ BufferLeft res calls calls' g x p content) := by
  obtain ⟨⟨ret, p, content⟩, calls', hrun, hleft⟩ := receiveWith_served (sockSolvRecv_eq sys s)
    (P := fun a p content => a.2 = (p, content)) (fun _ _ => rfl) (fun _ _ => rfl) hs hf hlimit
  refine ⟨ret, p, content, calls', hrun, ?_⟩
  rcases hleft with ⟨hfails, ⟨_, hret⟩, hfreed⟩ | ⟨hok, _, _, hbuffer, hleft⟩
  · exact Or.inl ⟨hfails, congrArg Prod.fst hret, hfreed⟩
  · cases hbuffer
    exact Or.inr ⟨hok, hleft⟩

/-- Reads that do not come near 2^31 bytes are within the limit. -/
theorem frame_within (hf : SockFrame s g x t) (htotal : (bytesOf s.reads).length < 2 ^ 31 - 4000) :
    g.length < recvLimit := by
  have hlen := bytesOf_full_length hf.long
  rw [hf.content, List.length_append, List.length_append, hlen] at htotal
  unfold maxInputLen at htotal
  unfold recvLimit
  omega

/-- **Receive buffers are never overrun and lose nothing**, for reads of less than 2^31 - 4000
bytes and a system that serves every request for memory. -/
theorem receive_buffers (sys : System) (res : Resources) (calls : List GcCall) (s : Sock)
    (htotal : (bytesOf s.reads).length < 2 ^ 31 - 4000)
    (hs : Serves sys res (s.reads.length + 3) calls) :
    ((∀ r : ReadRes, memcpy (some (List.replicate buffSize 0)) 0 r.block = .ok r.block) ∧
        Rds.sockRecv s ≠ .error .crash ∧ Rds.sockSolvRecv s ≠ .error .crash) ∧
      ∀ g x t, SockFrame s g x t →
        (∃ buf calls', (sockRecv sys s).run calls = some ((buf, t), calls') ∧
          (FirstFails g x ∧ buf = none ∧ after res calls' = after res calls ∨
            ¬ FirstFails g x ∧ ∃ p content, buf = some (p, content) ∧
              BufferLeft res calls calls' g x p content)) ∧
        ∃ ret p content calls',
          (sockSolvRecv sys s).run calls = some (((ret, p, content), t), calls') ∧
          (FirstFails g x ∧ ret = -1 ∧ after res calls' = after res calls ∨
            ¬ FirstFails g x ∧ BufferLeft res calls calls' g x p content) := by
  refine ⟨⟨memcpy_first, sockRecv_ne_crash htotal, sockSolvRecv_ne_crash htotal⟩, ?_⟩
  intro g x t hf
  have hlimit := frame_within hf htotal
  exact ⟨sockRecv_served hs hf hlimit, sockSolvRecv_served hs hf hlimit⟩

/-- The system of one session serves every request, as long as it counts its calls. -/
theorem plainSystem_serves : ∀ {n : ℕ} {calls : List GcCall}, calls.length + n < 2 ^ 32 →
    (∀ p ∈ (after .none calls).ptrs, p.lo.toNat < calls.length) →
    Serves plainSystem .none n calls := by
  intro n
  induction n with
  | zero => exact fun _ _ => trivial
  | succ n ih =>
    intro calls hn hlive
    have hlo : calls.length.toUInt32.toNat = calls.length := by
      rw [Nat.toUInt32_eq, UInt32.toNat_ofNat']
      omega
    have hnew : (⟨calls.length.toUInt32, 1⟩ : Address) ∉ (after .none calls).ptrs := by
      intro hmem
      have hlt := hlive _ hmem
      simp only [hlo] at hlt
      omega
    have hfresh : freshBlock calls 1 = some ⟨calls.length.toUInt32, 1⟩ := if_neg hnew
    -- a call more leaves what was there before, or adds the block it got
    have hnext : ∀ call : GcCall,
        (∀ p ∈ (call.resources (after .none calls)).ptrs,
          p ∈ (after .none calls).ptrs ∨ p = ⟨calls.length.toUInt32, 1⟩) →
        Serves plainSystem .none n (calls ++ [call]) := by
      intro call hcall
      refine ih (by rw [List.length_append, List.length_singleton]; omega) ?_
      intro p hp
      rw [after_concat] at hp
      rw [List.length_append, List.length_singleton]
      rcases hcall p hp with hp | rfl
      · have hlt := hlive p hp
        omega
      · simp only [hlo]
        omega
    refine ⟨⟨_, _, hfresh, rfl, hnew, ?_⟩, ?_⟩
    · intro size
      refine hnext _ fun p hp => ?_
      exact (Finset.mem_insert.1 hp).symm
    · intro old
      refine ⟨_, _, hfresh, rfl, fun _ => hnew, ?_⟩
      intro size
      refine hnext _ fun p hp => ?_
      simp only [GcCall.resources] at hp
      split at hp
      · rcases Finset.mem_insert.1 hp with rfl | hp
        · exact Or.inr rfl
        · exact Or.inl (Finset.mem_of_mem_erase hp)
      · exact Or.inl hp

end Collected

/-! ## The count -/

/-- A read of full length. -/
def fullRead : ReadRes := .got (List.replicate maxInputLen 1) (by simp)

theorem fullRead_not_short : ¬ fullRead.Short := by
  unfold fullRead
  rw [ReadRes.short_got, List.length_replicate]
  exact lt_irrefl _

/-- A stream that fails after its first 2000 bytes. -/
def cutSock : Sock := ⟨[fullRead, .err], false⟩

theorem cutSock_length : (bytesOf cutSock.reads).length = 2000 := by
  have hbytes : bytesOf cutSock.reads = List.replicate maxInputLen 1 := List.append_nil _
  rw [hbytes, List.length_replicate]
  rfl

theorem cutSock_frame : SockFrame cutSock [fullRead] .err ⟨[], false⟩ :=
  SockFrame.of_reads (fun _ hr => List.mem_singleton.1 hr ▸ fullRead_not_short) ReadRes.short_err
    [] false

open Collected in
theorem receive_buffers_cut :
    (bytesOf cutSock.reads).length < 2 ^ 31 - 4000 ∧ Collected.Serves plainSystem .none 5 [] ∧
    ∃ buf calls', (Collected.sockRecv plainSystem cutSock).run [] =
        some ((buf, ⟨[], false⟩), calls') ∧
      ∃ p content, buf = some (p, content) ∧
        BufferLeft .none [] calls' [fullRead] .err p content := by
  have htotal : (bytesOf cutSock.reads).length < 2 ^ 31 - 4000 := by
    rw [cutSock_length]
    decide
  have hserves : Collected.Serves plainSystem .none 5 [] :=
    plainSystem_serves (by decide) fun p hp => absurd hp (Finset.notMem_empty p)
  refine ⟨htotal, hserves, ?_⟩
  obtain ⟨-, hall⟩ := receive_buffers plainSystem .none [] cutSock htotal hserves
  obtain ⟨⟨buf, calls', hrun, hleft⟩, -⟩ := hall _ _ _ cutSock_frame
  refine ⟨buf, calls', hrun, ?_⟩
  rcases hleft with ⟨⟨hfirst, -⟩, -, -⟩ | ⟨-, hleft⟩
  · cases hfirst
  · exact hleft

/-- **The count is exact**: it is that of the bytes taken from the stream, and the buffer starts
with them. -/
def CountExact (s t : Sock) (n : ℤ) (buf : Option (List Byte)) : Prop :=
  ∃ bs b, bytesOf s.reads = bs ++ bytesOf t.reads ∧ n = bs.length ∧ buf = some b ∧ bs <+: b

/-- The read that ends a receive, where the stream has it. -/
def lastRead (s : Sock) : Option ReadRes := s.reads.find? fun r => decide r.Short

variable {s t : Sock} {g : List ReadRes} {x : ReadRes}

theorem find_short (hg : ∀ r ∈ g, ¬ r.Short) (rest : List ReadRes) :
    (g ++ rest).find? (fun r => decide r.Short) = rest.find? fun r => decide r.Short := by
  induction g with
  | nil => rfl
  | cons r g ih =>
    have hr : ¬ r.Short := hg r List.mem_cons_self
    rw [List.cons_append, List.find?_cons_of_neg (by simpa using hr)]
    exact ih fun b hb => hg b (List.mem_cons_of_mem _ hb)

/-- A frame ends with a failure exactly when its last read is one of the stream's. -/
theorem lastRead_err_iff (hf : SockFrame s g x t) : lastRead s = some .err ↔ x = .err := by
  unfold lastRead
  have hg := Framing.Frame.long hf
  rcases SockFrame.reads_eq hf with hreads | ⟨-, hreads, hx, -⟩
  · have hshort : x.Short := hf.short_last
    rw [hreads, find_short hg, List.find?_cons_of_pos (by simpa using hshort)]
    simp
  · rw [hreads, ← List.append_nil g, find_short hg, hx]
    simp [ReadRes.eof]

/-- **The count of `sock_solv_recv`** is that of the bytes it took exactly when the read that ended
it did not fail. -/
theorem received_count_iff {n : ℤ} {buf : Option (List Byte)} (h : sockSolvRecv s = .ok ((n, buf), t))
    (hn : 0 ≤ n) : CountExact s t n buf ↔ lastRead s ≠ some .err := by
  obtain ⟨g, x, hf, -, rfl, rfl⟩ := sockSolvRecv_iff.1 h
  rw [Ne, lastRead_err_iff hf]
  have hcontent := SockFrame.content hf
  have hfull : (bytesOf g).length = maxInputLen * g.length :=
    bytesOf_full_length (Framing.Frame.long hf)
  constructor
  · rintro ⟨bs, b, htaken, hcount, -, -⟩ rfl
    have hbs : bs = bytesOf g := by
      rw [hcontent, List.append_cancel_right_eq] at htaken
      simpa [ReadRes.bytes] using htaken.symm
    -- the failed read is counted as -1
    rw [hbs, hfull] at hcount
    simp only [frameRet, ReadRes.ret] at hcount
    push_cast at hcount
    omega
  · intro hx
    cases x with
    | err => exact absurd rfl hx
    | got bs le =>
      refine ⟨bytesOf g ++ bs, bytesOf g ++ (ReadRes.got bs le).block, hcontent, ?_, ?_, ?_⟩
      · rw [List.length_append, hfull]
        simp only [frameRet, ReadRes.ret]
        push_cast
        ring
      · cases g <;> rfl
      · rw [List.prefix_append_right_inj]
        exact List.prefix_append _ _

/-- A stream of 2001 bytes. -/
def wholeSock : Sock := ⟨[fullRead, .got [7] (by decide)], false⟩

theorem received_count_iff_whole :
    ∃ n buf t, sockSolvRecv wholeSock = .ok ((n, buf), t) ∧ 0 ≤ n ∧
      (CountExact wholeSock t n buf ↔ lastRead wholeSock ≠ some .err) ∧
      lastRead wholeSock ≠ some .err := by
  have hf : SockFrame wholeSock [fullRead] (.got [7] (by decide)) ⟨[], false⟩ :=
    SockFrame.of_reads (fun _ hr => List.mem_singleton.1 hr ▸ fullRead_not_short)
      (ReadRes.short_got.2 (by decide)) [] false
  have hrecv := sockSolvRecv_iff.2 ⟨_, _, hf, by decide, rfl, rfl⟩
  refine ⟨_, _, _, hrecv, by decide, received_count_iff hrecv (by decide), ?_⟩
  rw [Ne, lastRead_err_iff hf]
  intro herr
  cases herr

/-- **A failure after full reads is counted as -1**: 2000 bytes are taken, and 1999 are counted. -/
theorem received_count_fails :
    ∃ n buf t, sockSolvRecv cutSock = .ok ((n, buf), t) ∧ 0 ≤ n ∧ n = 1999 ∧
      (bytesOf cutSock.reads).length = 2000 ∧ bytesOf t.reads = [] ∧
      ¬ CountExact cutSock t n buf := by
  have hrecv := sockSolvRecv_iff.2 ⟨_, _, cutSock_frame, by decide, rfl, rfl⟩
  refine ⟨_, _, _, hrecv, by decide, by decide, cutSock_length, rfl, ?_⟩
  rintro ⟨bs, b, htaken, hcount, -, -⟩
  have hlen := congrArg List.length htaken
  have hnone : (bytesOf ([] : List ReadRes)).length = 0 := rfl
  have hret : frameRet [fullRead] .err = 1999 := by decide
  rw [List.length_append, cutSock_length, hnone] at hlen
  rw [hret] at hcount
  omega

end Rds
