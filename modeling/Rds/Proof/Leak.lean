import Rds.Lib.Instrument
import Rds.Proof.Session
import Rds.Proof.Tracking
import Rds.Spec.ServerMemory

/-!
# What a session leaves behind

The resources before a session and after it, whatever the system answers.

* `Keeps`: what a part of the session does not give back.
* `ssdsServerProcess_spec`: the text of a message is never given back.
* `session_leaves_nothing_iff`: the only sessions that give everything back.
-/

namespace Rds.Collected

open Instrument Invariant

variable {sys : System} {res : Resources} {base calls calls' : List GcCall} {env : Env}

/-! ## Resources -/

/-- The resources after some calls. -/
def after (res : Resources) (calls : List GcCall) : Resources := calls.foldl GcCall.resources res

theorem after_concat (res : Resources) (calls : List GcCall) (call : GcCall) :
    after res (calls ++ [call]) = call.resources (after res calls) :=
  List.foldl_concat GcCall.resources res call calls

/-- **What the system promises**: what it gives is not in use. -/
structure System.Lawful (sys : System) (res : Resources) : Prop where
  malloc : ∀ calls p, sys.malloc calls = some p → p ≠ .null ∧ p ∉ (after res calls).ptrs
  realloc : ∀ calls old p, sys.realloc calls old = some p →
    p ≠ .null ∧ (p ≠ old → p ∉ (after res calls).ptrs)
  accept : ∀ calls fd, sys.accept calls = some fd → fd ∉ (after res calls).socks
  json : ∀ calls p, sys.json calls = some p → p ∉ (after res calls).ptrs
  /-- -1 is no descriptor. -/
  descriptor : -1 ∉ res.socks

/-- A call that gets what it asks for, and a block for its item. -/
def Answered (res : Resources) (call : GcCall) : Prop := call.Given res ∧ call.Granted

/-- **Nothing is given back that was there before**, and every call is answered. -/
structure Keeps (res : Resources) (calls calls' : List GcCall) : Prop where
  ptrs : (after res calls).ptrs ⊆ (after res calls').ptrs
  socks : (after res calls').socks = (after res calls).socks
  answered : Along GcCall.resources Answered res calls → Along GcCall.resources Answered res calls'

instance : IsPreorder (List GcCall) (Keeps res) where
  refl _ := ⟨fun _ h => h, rfl, fun h => h⟩
  trans _ _ _ hab hbc := ⟨fun _ h => hbc.ptrs (hab.ptrs h), hbc.socks.trans hab.socks,
    fun h => hbc.answered (hab.answered h)⟩

/-- A block that was not there before. -/
structure New (res : Resources) (base calls : List GcCall) (p : Address) : Prop where
  live : p ∈ (after res calls).ptrs
  fresh : p ∉ (after res base).ptrs

theorem Keeps.trans {calls'' : List GcCall} (h : Keeps res calls calls')
    (h' : Keeps res calls' calls'') : Keeps res calls calls'' := trans_of (Keeps res) h h'

theorem New.keeps {p : Address} (h : New res base calls p) (hk : Keeps res calls calls') :
    New res base calls' p := ⟨hk.ptrs h.live, h.fresh⟩

/-- A block that is new for a part is new for what came before. -/
theorem New.before {p : Address} (h : New res calls calls' p) (hk : Keeps res base calls) :
    New res base calls' p := ⟨h.live, fun hp => h.fresh (hk.ptrs hp)⟩

/-- **What was not there before** may be given back. -/
theorem Keeps.free (h : Keeps res base calls) {p : Address} (hp : p ∉ (after res base).ptrs) :
    Keeps res base (calls ++ [.free p]) := by
  refine ⟨?_, ?_, ?_⟩
  · intro q hq
    rw [after_concat]
    refine Finset.mem_erase.2 ⟨?_, h.ptrs hq⟩
    rintro rfl
    exact hp hq
  · rw [after_concat]
    exact h.socks
  · intro ha
    exact Along.concat_iff.2 ⟨h.answered ha, trivial, trivial⟩

theorem New.free {p q : Address} (h : New res base calls p) (hne : p ≠ q) :
    New res base (calls ++ [.free q]) p := by
  refine ⟨?_, h.fresh⟩
  rw [after_concat]
  exact Finset.mem_erase.2 ⟨hne, h.live⟩

/-- A block that the collector does not know is none of the resources. -/
theorem free_unknown {p : Address} (hp : p ∉ res.ptrs) : (GcCall.free p).resources res = res := by
  simp only [GcCall.resources, Finset.erase_eq_of_notMem hp]

/-! ## The calls -/

/-- A block comes with an item. -/
theorem malloc_run {size : ℤ} {p : Address} (h : (malloc sys size).run calls = some (p, calls')) :
    sys.malloc calls = some p ∧ ∃ block, calls' = calls ++ [.malloc size (some p) (some block)] := by
  obtain ⟨c, c₁, hget, h⟩ := run_bind_eq_some.1 h
  cases hget
  cases hp : sys.malloc calls with
  | none =>
    rw [hp] at h
    cases h
  | some q =>
    cases hb : sys.item calls with
    | none =>
      rw [hp, hb] at h
      cases h
    | some block =>
      rw [hp, hb] at h
      cases h
      exact ⟨rfl, block, rfl⟩

theorem malloc_after {size : ℤ} {p : Address} (res : Resources)
    (h : (malloc sys size).run calls = some (p, calls')) :
    after res calls' = { after res calls with ptrs := insert p (after res calls).ptrs } := by
  obtain ⟨-, block, rfl⟩ := malloc_run h
  exact after_concat _ _ _

/-- **A new block.** -/
theorem malloc_spec (hsys : sys.Lawful res) {size : ℤ} {p : Address}
    (h : (malloc sys size).run calls = some (p, calls')) :
    Keeps res calls calls' ∧ New res calls calls' p := by
  have hafter := malloc_after res h
  obtain ⟨hp, block, rfl⟩ := malloc_run h
  obtain ⟨hnull, hfresh⟩ := hsys.malloc calls p hp
  refine ⟨⟨?_, ?_, ?_⟩, ?_, hfresh⟩
  · rw [hafter]
    exact Finset.subset_insert _ _
  · rw [hafter]
  · intro ha
    refine Along.concat_iff.2 ⟨ha, ?_, fun _ => rfl⟩
    intro q hq
    rw [← Option.some.inj hq]
    exact ⟨hnull, hfresh⟩
  · rw [hafter]
    exact Finset.mem_insert_self _ _

/-- A block that is given back at once leaves nothing. -/
theorem malloc_free (hsys : sys.Lawful res) {size : ℤ} {p : Address}
    (h : (malloc sys size).run calls = some (p, calls')) :
    after res (calls' ++ [.free p]) = after res calls := by
  have hfresh := (malloc_spec hsys h).2.fresh
  rw [after_concat, malloc_after res h]
  simp only [GcCall.resources, Finset.erase_insert hfresh]

/-- A block that moves gets an item. -/
theorem realloc_run {old p : Address} {size : ℤ}
    (h : (realloc sys old size).run calls = some (p, calls')) :
    sys.realloc calls old = some p ∧ (p ≠ old → (sys.item calls).isSome) ∧
      calls' = calls ++ [.realloc old size (some p) (sys.item calls)] := by
  obtain ⟨c, c₁, hget, h⟩ := run_bind_eq_some.1 h
  cases hget
  cases hp : sys.realloc calls old with
  | none =>
    rw [hp] at h
    cases h
  | some q =>
    rw [hp] at h
    by_cases hitem : q ≠ old ∧ sys.item calls = none
    · simp only [if_pos hitem] at h
      cases h
    · simp only [if_neg hitem] at h
      cases h
      refine ⟨rfl, fun hne => ?_, rfl⟩
      rw [Option.isSome_iff_ne_none]
      exact fun hnone => hitem ⟨hne, hnone⟩

/-! ## Receiving -/

/-- A receive that has its two blocks, since `base`. -/
structure Buffered (res : Resources) (base calls : List GcCall) (r b : Address) : Prop where
  keeps : Keeps res base calls
  reply : New res base calls r
  buffer : New res base calls b
  ne : b ≠ r

/-- A call that leaves the resources as they are. -/
theorem Buffered.unchanged {r b : Address} (hb : Buffered res base calls r b)
    (hafter : after res calls' = after res calls)
    (halong : Along GcCall.resources Answered res base →
      Along GcCall.resources Answered res calls') : Buffered res base calls' r b := by
  refine ⟨⟨?_, ?_, halong⟩, ⟨?_, hb.reply.fresh⟩, ⟨?_, hb.buffer.fresh⟩, hb.ne⟩
  · rw [hafter]
    exact hb.keeps.ptrs
  · rw [hafter]
    exact hb.keeps.socks
  · rw [hafter]
    exact hb.reply.live
  · rw [hafter]
    exact hb.buffer.live

/-- A call that puts another block in the place of the buffer. -/
theorem Buffered.moved {r b b' : Address} (hb : Buffered res base calls r b)
    (hafter : after res calls' =
      { after res calls with ptrs := insert b' ((after res calls).ptrs.erase b) })
    (hnew : b' ∉ (after res calls).ptrs)
    (halong : Along GcCall.resources Answered res base →
      Along GcCall.resources Answered res calls') : Buffered res base calls' r b' := by
  refine ⟨⟨?_, ?_, halong⟩, ⟨?_, hb.reply.fresh⟩, ⟨?_, ?_⟩, ?_⟩
  · rw [hafter]
    intro q hq
    refine Finset.mem_insert_of_mem (Finset.mem_erase.2 ⟨?_, hb.keeps.ptrs hq⟩)
    rintro rfl
    exact hb.buffer.fresh hq
  · rw [hafter]
    exact hb.keeps.socks
  · rw [hafter]
    exact Finset.mem_insert_of_mem (Finset.mem_erase.2 ⟨hb.ne.symm, hb.reply.live⟩)
  · rw [hafter]
    exact Finset.mem_insert_self _ _
  · exact fun hmem => hnew (hb.keeps.ptrs hmem)
  · rintro rfl
    exact hnew hb.reply.live

/-- **A buffer that is resized** may move. -/
theorem growBlock_spec (hsys : sys.Lawful res) {m : RecvLoop} {r b b' : Address}
    (hb : Buffered res base calls r b)
    (h : (growBlock sys m b).run calls = some (b', calls')) : Buffered res base calls' r b' := by
  unfold growBlock at h
  split at h
  · obtain ⟨hp, hitem, rfl⟩ := realloc_run h
    obtain ⟨hnull, hfresh⟩ := hsys.realloc calls b b' hp
    set call : GcCall := .realloc b ((m.buffSz + 1) * buffSize : ℕ) (some b') (sys.item calls)
      with hcall
    have hanswered : Answered (after res calls) call := by
      refine ⟨?_, fun _ hne => hitem fun heq => hne (congrArg some heq)⟩
      intro q hq
      rw [← Option.some.inj hq]
      exact ⟨hnull, hfresh⟩
    have halong : Along GcCall.resources Answered res base →
        Along GcCall.resources Answered res (calls ++ [call]) :=
      fun ha => Along.concat_iff.2 ⟨hb.keeps.answered ha, hanswered⟩
    by_cases hmoved : b' = b
    · have hafter : after res (calls ++ [call]) = after res calls := by
        rw [after_concat, hcall, hmoved]
        exact if_neg fun hne => hne rfl
      rw [hmoved]
      exact hb.unchanged hafter halong
    · obtain ⟨block, hblock⟩ := Option.isSome_iff_exists.1 (hitem hmoved)
      have hafter : after res (calls ++ [call]) = { after res calls with
          ptrs := insert b' ((after res calls).ptrs.erase b) } := by
        rw [after_concat, hcall, hblock]
        exact if_pos hmoved
      exact hb.moved hafter (hfresh hmoved) halong
  · obtain ⟨rfl, rfl⟩ := run_pure_eq_some.1 h
    exact hb

/-- **The loop** reads what it did, and its two blocks stay its own. -/
theorem recvLoop_spec (hsys : sys.Lawful res) {closed : Bool} {reads rs : List ReadRes}
    {m m' : RecvLoop} {r b b' : Address} (hb : Buffered res base calls r b)
    (h : (recvLoop sys closed reads m b).run calls = some (((m', rs), b'), calls')) :
    Rds.recvLoop closed reads m = .ok (m', rs) ∧ Buffered res base calls' r b' := by
  induction reads generalizing m b calls with
  | nil =>
    unfold recvLoop at h
    cases closed with
    | false => cases h
    | true =>
      rw [if_pos rfl] at h
      obtain ⟨b₁, c₁, hgrow, h₁⟩ := run_bind_eq_some.1 h
      obtain ⟨m₁, c₂, hplain, h₂⟩ := run_bind_eq_some.1 h₁
      obtain ⟨hstore, rfl⟩ := run_lift_eq_some.1 hplain
      cases h₂
      refine ⟨?_, growBlock_spec hsys hb hgrow⟩
      unfold Rds.recvLoop
      rw [if_pos rfl, hstore]
      rfl
  | cons x reads ih =>
    unfold recvLoop at h
    obtain ⟨b₁, c₁, hgrow, h₁⟩ := run_bind_eq_some.1 h
    obtain ⟨m₁, c₂, hplain, h₂⟩ := run_bind_eq_some.1 h₁
    obtain ⟨hstore, rfl⟩ := run_lift_eq_some.1 hplain
    have hb₁ := growBlock_spec hsys hb hgrow
    unfold Rds.recvLoop
    rw [hstore]
    by_cases hx : x.Short
    · rw [if_pos hx] at h₂
      cases h₂
      simp only [bind, Except.bind, if_pos hx]
      exact ⟨rfl, hb₁⟩
    · rw [if_neg hx] at h₂
      simp only [bind, Except.bind, if_neg hx]
      exact ih hb₁ h₂

theorem Buffered.start (hsys : sys.Lawful res) {m n : ℤ} {c₁ c₂ : List GcCall} {r b : Address}
    (h₁ : (malloc sys m).run calls = some (r, c₁)) (h₂ : (malloc sys n).run c₁ = some (b, c₂)) :
    Buffered res calls c₂ r b := by
  obtain ⟨hk₁, hr⟩ := malloc_spec hsys h₁
  obtain ⟨hk₂, hb⟩ := malloc_spec hsys h₂
  refine ⟨hk₁.trans hk₂, hr.keeps hk₂, hb.before hk₁, ?_⟩
  rintro rfl
  exact hb.fresh hr.live

/-- At the end of a receive the buffer is left. -/
theorem Buffered.finish {r b : Address} (h : Buffered res base calls r b) :
    Keeps res base (calls ++ [.free r]) ∧ New res base (calls ++ [.free r]) b :=
  ⟨h.keeps.free h.reply.fresh, h.buffer.free h.ne⟩

/-- The first read of a receive fails. -/
def ReadFails (s : Sock) : Prop := ∃ rs, s.reads = .err :: rs

theorem readFails_iff {s t : Sock} {r : ReadRes} (h : ssdsRead s = .ok (r, t)) :
    ReadFails s ↔ r = .err := by
  rcases pull_cases (pull_eq_some.2 h) with ⟨rs, hrs, rfl⟩ | ⟨hrs, -, rfl, -⟩
  · unfold ReadFails
    rw [hrs]
    simp
  · unfold ReadFails
    rw [hrs]
    simp [ReadRes.eof]

/-- **`sock_recv`** leaves its text behind, unless the first read fails. -/
theorem sockRecv_spec (hsys : sys.Lawful res) {s t : Sock}
    {buf : Option (Address × Option (List Byte))}
    (h : (sockRecv sys s).run calls = some ((buf, t), calls')) :
    Rds.sockRecv s = .ok (buf.bind Prod.snd, t) ∧ Keeps res calls calls' ∧
      ((ReadFails s ∧ buf = none ∧ after res calls' = after res calls) ∨
        (¬ ReadFails s ∧ ∃ p, New res calls calls' p)) := by
  obtain ⟨reply, c₁, hmalloc, h₁⟩ := run_bind_eq_some.1 h
  obtain ⟨⟨r, s₁⟩, c₂, hplain, h₂⟩ := run_bind_eq_some.1 h₁
  obtain ⟨hread, rfl⟩ := run_lift_eq_some.1 hplain
  obtain ⟨hk, hnew⟩ := malloc_spec hsys hmalloc
  have hfails := readFails_iff hread
  unfold Rds.sockRecv
  rw [hread]
  cases r with
  | err =>
    cases h₂
    exact ⟨rfl, hk.free hnew.fresh, Or.inl ⟨hfails.2 rfl, rfl, malloc_free hsys hmalloc⟩⟩
  | got bs le =>
    have hok : ¬ ReadFails s := fun hf => nomatch hfails.1 hf
    by_cases hbs : bs.length = maxInputLen
    · simp only [if_pos hbs] at h₂
      obtain ⟨buffer, c₃, hmalloc', h₃⟩ := run_bind_eq_some.1 h₂
      obtain ⟨⟨⟨m, rs⟩, buffer'⟩, c₄, hrun, h₄⟩ := run_bind_eq_some.1 h₃
      obtain ⟨hloop, hb⟩ := recvLoop_spec hsys (.start hsys hmalloc hmalloc') hrun
      cases h₄
      simp only [bind, Except.bind, if_pos hbs]
      rw [hloop]
      exact ⟨rfl, hb.finish.1, Or.inr ⟨hok, buffer', hb.finish.2⟩⟩
    · simp only [if_neg hbs] at h₂
      cases h₂
      simp only [bind, Except.bind, if_neg hbs]
      exact ⟨rfl, hk, Or.inr ⟨hok, reply, hnew⟩⟩

/-- **`sock_solv_recv`** gives nothing back that was there before, and its block is new. -/
theorem sockSolvRecv_spec (hsys : sys.Lawful res) {s t : Sock} {ret : ℤ} {p : Address}
    {content : Option (List Byte)}
    (h : (sockSolvRecv sys s).run calls = some (((ret, p, content), t), calls')) :
    Rds.sockSolvRecv s = .ok ((ret, content), t) ∧ Keeps res calls calls' ∧
      p ∉ (after res calls).ptrs := by
  obtain ⟨buffer, c₁, hmalloc, h₁⟩ := run_bind_eq_some.1 h
  obtain ⟨⟨r, s₁⟩, c₂, hplain, h₂⟩ := run_bind_eq_some.1 h₁
  obtain ⟨hread, rfl⟩ := run_lift_eq_some.1 hplain
  obtain ⟨hk, hnew⟩ := malloc_spec hsys hmalloc
  unfold Rds.sockSolvRecv
  rw [hread]
  cases r with
  | err =>
    cases h₂
    exact ⟨rfl, hk.free hnew.fresh, hnew.fresh⟩
  | got bs le =>
    by_cases hbs : bs.length = maxInputLen
    · simp only [if_pos hbs] at h₂
      obtain ⟨buff, c₃, hmalloc', h₃⟩ := run_bind_eq_some.1 h₂
      obtain ⟨⟨⟨m, rs⟩, buff'⟩, c₄, hrun, h₄⟩ := run_bind_eq_some.1 h₃
      obtain ⟨hloop, hb⟩ := recvLoop_spec hsys (.start hsys hmalloc hmalloc') hrun
      cases h₄
      simp only [bind, Except.bind, if_pos hbs]
      rw [hloop]
      exact ⟨rfl, hb.finish.1, hb.buffer.fresh⟩
    · simp only [if_neg hbs] at h₂
      cases h₂
      simp only [bind, Except.bind, if_neg hbs]
      exact ⟨rfl, hk, hnew.fresh⟩

/-! ## Uploads -/

variable {u : Upload}

theorem plain_follows {α : Type} (x : Except Halt α) : Follows (Keeps res) (plain x) x :=
  .lift x

theorem malloc_keeps (hsys : sys.Lawful res) (size : ℤ) (calls : List GcCall) (p : Address)
    (calls' : List GcCall) (h : (malloc sys size).run calls = some (p, calls')) :
    Keeps res calls calls' := (malloc_spec hsys h).1

/-- **The loop of an upload.** -/
theorem uploadLoop_follows (hsys : sys.Lawful res) {n : ℤ} (fuel : ℕ) :
    ∀ w json sv, Follows (Keeps res) (uploadLoop sys env u n fuel w json sv)
      (Rds.uploadLoop env u n fuel w json sv) := by
  induction fuel with
  | zero => exact fun w json sv => .failure _
  | succ fuel ih =>
    intro w json sv calls a calls' h
    unfold uploadLoop at h
    obtain ⟨⟨⟨ret, p, content⟩, t⟩, c₁, hrecv, h₁⟩ := run_bind_eq_some.1 h
    obtain ⟨hsock, hk, hfresh⟩ := sockSolvRecv_spec hsys hrecv
    unfold Rds.uploadLoop
    rw [hsock]
    simp only [bind, Except.bind]
    cases hw : fwriteFile env { sv with sock := t } u.file (toInt ret) content with
    | mk stored sv₁ =>
      cases stored with
      | false =>
        simp only [hw] at h₁ ⊢
        cases h₁
        exact ⟨rfl, hk⟩
      | true =>
        simp only [hw] at h₁ ⊢
        obtain ⟨_, c₂, hfree, h₂⟩ := run_bind_eq_some.1 h₁
        cases hfree
        have hk₂ := hk.free hfresh
        by_cases h0 : toInt ret < 0
        · simp only [if_pos h0] at h₂ ⊢
          cases h₂
          exact ⟨rfl, hk₂⟩
        · simp only [if_neg h0] at h₂ ⊢
          by_cases hn : toInt (w + toInt ret) = n
          · simp only [if_pos hn] at h₂ ⊢
            cases h₂
            exact ⟨rfl, hk₂⟩
          · simp only [if_neg hn] at h₂ ⊢
            obtain ⟨hloop, hk₃⟩ := ih _ _ _ _ _ _ h₂
            exact ⟨hloop, hk₂.trans hk₃⟩

theorem uploadBranch_follows (hsys : sys.Lawful res) {fuel : ℕ} {js : SsdsJsonCreate}
    {json : SsdsJsonRead} {sv : Server} :
    Follows (Keeps res) (uploadBranch sys env u fuel js json sv)
      (Rds.uploadBranch env u fuel js json sv) := by
  unfold uploadBranch Rds.uploadBranch
  refine (plain_follows _).bind fun n => ?_
  split
  · exact (uploadLoop_follows hsys fuel _ _ _).bind fun p => .pure _
  · exact .pure _

/-! ## Requests -/

theorem repoUrlLoop_follows (hsys : sys.Lawful res) (urlArr : Option JsonArray) (n : ℕ) :
    ∀ j, Follows (Keeps res) (repoUrlLoop sys urlArr n j) (Rds.repoUrlLoop urlArr n j) := by
  induction n with
  | zero => exact fun j => .pure []
  | succ n ih =>
    intro j
    unfold repoUrlLoop Rds.repoUrlLoop
    cases jsonArrayGetStringElement urlArr j with
    | none => exact .failure _
    | some word => exact .recorded (malloc_keeps hsys _) fun _ => (ih _).bind fun words => .pure _

theorem repoInfoAt_follows (hsys : sys.Lawful res) (array : Option JsonArray) (i : ℕ) :
    Follows (Keeps res) (repoInfoAt sys array i) (Rds.repoInfoAt array i) := by
  unfold repoInfoAt Rds.repoInfoAt
  refine .recorded (malloc_keeps hsys _) fun _ => ?_
  simp only
  cases jsonObjectGetStringMember (jsonArrayGetObjectElement array i) "name" with
  | none => exact .failure _
  | some name =>
    refine .recorded (malloc_keeps hsys _) fun _ => .recorded (malloc_keeps hsys _) fun _ => ?_
    exact (repoUrlLoop_follows hsys _ _ _).bind fun urls => .pure _

theorem ssdsJsRdRepoInfo_follows (hsys : sys.Lawful res) (json : SsdsJsonRead) :
    Follows (Keeps res) (ssdsJsRdRepoInfo sys json) (Rds.ssdsJsRdRepoInfo json) :=
  (plain_follows _).bind fun _ => Follows.mapM (repoInfoAt_follows hsys _) _

theorem fullPathToMetadata_follows (hsys : sys.Lawful res) (name : String) :
    Follows (Keeps res) (fullPathToMetadata sys name)
      (Pure.pure (Rds.fullPathToMetadata name) : Except Halt String) :=
  .recorded (malloc_keeps hsys _) fun _ => .pure _

theorem localRepoMetadata_follows (hsys : sys.Lawful res) (cache : Cache) (repo : SsdsRepoInfo)
    (list : List SsdsMetadataFilesLoc) :
    Follows (Keeps res) (localRepoMetadata sys cache repo list)
      (Pure.pure (Rds.localRepoMetadata cache repo list) :
        Except Halt (Bool × List SsdsMetadataFilesLoc)) := by
  unfold localRepoMetadata Rds.localRepoMetadata
  refine (fullPathToMetadata_follows hsys _).value (.recorded (malloc_keeps hsys _) fun _ => ?_)
  simp only
  cases cache (resolvePath (Rds.fullPathToMetadata repo.name)) with
  | none => exact .pure _
  | some md => exact .recorded (malloc_keeps hsys _) fun _ => .pure _

theorem downloadRepoMetadataByUrl_follows (hsys : sys.Lawful res) (cache : Cache)
    (repo : SsdsRepoInfo) (download : Download) (list : List SsdsMetadataFilesLoc) :
    Follows (Keeps res) (downloadRepoMetadataByUrl sys cache repo download list)
      (Pure.pure (Rds.downloadRepoMetadataByUrl cache repo download list) :
        Except Halt (Cache × List SsdsMetadataFilesLoc)) := by
  unfold downloadRepoMetadataByUrl Rds.downloadRepoMetadataByUrl
  refine (fullPathToMetadata_follows hsys _).value ?_
  cases urlOption repo with
  | none => exact .pure _
  | some origin =>
    cases download with
    | none => exact .pure _
    | some files => exact .recorded (malloc_keeps hsys _) fun _ => .pure _

theorem locateOne_follows (hsys : sys.Lawful res) (st : Cache × List SsdsMetadataFilesLoc)
    (rd : SsdsRepoInfo × Download) :
    Follows (Keeps res) (locateOne sys st rd)
      (Pure.pure (Rds.locateOne st rd) : Except Halt (Cache × List SsdsMetadataFilesLoc)) := by
  unfold locateOne Rds.locateOne
  refine (localRepoMetadata_follows hsys _ _ _).value ?_
  cases Rds.localRepoMetadata st.1 rd.1 st.2 with
  | mk found list =>
    cases found with
    | true => exact .pure _
    | false => exact downloadRepoMetadataByUrl_follows hsys _ _ _ _

theorem ssdsFillSack_follows (hsys : sys.Lawful res) (list : List SsdsMetadataFilesLoc) :
    Follows (Keeps res) (ssdsFillSack sys list)
      (Pure.pure (Rds.ssdsFillSack list) : Except Halt (List HyRepo)) := by
  unfold ssdsFillSack Rds.ssdsFillSack
  refine Follows.map (fun file => ?_) list
  exact .recorded (malloc_keeps hsys _) fun _ => .pure _

/-- **The branch for a request.** -/
theorem getBranch_follows (hsys : sys.Lawful res) {op : Code} {js : SsdsJsonCreate}
    {json : SsdsJsonRead} {sv : Server} :
    Follows (Keeps res) (getBranch sys env op js json sv) (Rds.getBranch env op js json sv) := by
  unfold getBranch Rds.getBranch
  refine (plain_follows _).bind fun p => .recorded (malloc_keeps hsys _) fun _ => ?_
  refine (ssdsJsRdRepoInfo_follows hsys _).bind fun list => ?_
  refine .recorded (malloc_keeps hsys _) fun _ => ?_
  refine (Follows.foldl (locateOne_follows hsys) _ _).value ?_
  refine (ssdsFillSack_follows hsys _).value ?_
  exact (plain_follows _).bind fun r => .pure _

/-! ## The session -/

theorem serverSwitch_follows (hsys : sys.Lawful res) {fuel : ℕ} {json : SsdsJsonRead}
    {sv : Server} :
    Follows (Keeps res) (serverSwitch sys env fuel json sv) (Rds.serverSwitch env fuel json sv) := by
  unfold serverSwitch Rds.serverSwitch
  refine (plain_follows _).bind fun code => ?_
  cases Code.ofNum code with
  | none => exact .pure _
  | some op =>
    cases op with
    | sendSolv | sendYumConf => exact uploadBranch_follows hsys
    | getInstall | getUpdate | getUpdateAll | getErase => exact getBranch_follows hsys
    | _ => exact .pure _

theorem serverMessage_follows (hsys : sys.Lawful res) {fuel : ℕ} {buf : Option (List Byte)}
    {fresh : SsdsJsonRead} {sv : Server} :
    Follows (Keeps res) (serverMessage sys env fuel buf fresh sv)
      (Rds.serverMessage env fuel buf fresh sv) := by
  cases buf with
  | none => exact .pure _
  | some b =>
    rw [serverMessage_some]
    unfold serverMessage
    simp only
    split
    · rename_i hp
      exact absurd (congrArg Prod.fst hp) (ssdsJsRdParse_ne_zero _ _ _)
    · rename_i hp
      rw [hp]
      exact serverSwitch_follows hsys

/-- The answer's block is not one of the collector's. -/
theorem ssdsJsCrInitBlock_spec (hsys : sys.Lawful res) {p : Address}
    (h : (ssdsJsCrInitBlock sys).run calls = some (p, calls')) :
    calls' = calls ∧ p ∉ (after res calls).ptrs := by
  obtain ⟨c, c₁, hget, h⟩ := run_bind_eq_some.1 h
  cases hget
  cases hp : sys.json calls with
  | none =>
    rw [hp] at h
    cases h
  | some q =>
    rw [hp] at h
    cases h
    exact ⟨rfl, hsys.json _ _ hp⟩

/-- **A call of `ssds_server_process`** returns what it did. It leaves the text of its message
behind; if no text is received it leaves nothing, and ends the session. -/
theorem ssdsServerProcess_spec (hsys : sys.Lawful res) {fuel : ℕ} {sv sv' : Server}
    {status : Errors}
    (h : (ssdsServerProcess sys env fuel sv).run calls = some ((status, sv'), calls')) :
    Rds.ssdsServerProcess env fuel sv = .ok (status, sv') ∧ Keeps res calls calls' ∧
      ((ReadFails sv.sock ∧ status ≠ .ok ∧ after res calls' = after res calls) ∨
        (¬ ReadFails sv.sock ∧ ∃ p, New res calls calls' p)) := by
  obtain ⟨⟨buf, sock⟩, c₁, hrecv, h₁⟩ := run_bind_eq_some.1 h
  obtain ⟨js, c₂, hjs, h₂⟩ := run_bind_eq_some.1 h₁
  obtain ⟨jr, c₃, hjr, h₃⟩ := run_bind_eq_some.1 h₂
  obtain ⟨⟨st, sv₁⟩, c₄, hmsg, h₄⟩ := run_bind_eq_some.1 h₃
  cases h₄
  obtain ⟨hsock, hk₁, hleft⟩ := sockRecv_spec hsys hrecv
  obtain ⟨rfl, hjsfresh⟩ := ssdsJsCrInitBlock_spec hsys hjs
  obtain ⟨hk₃, hjrnew⟩ := malloc_spec hsys hjr
  obtain ⟨hpure, hk₄⟩ := serverMessage_follows hsys _ _ _ hmsg
  have hk : Keeps res c₂ ((c₄ ++ [.free jr]) ++ [.free js]) :=
    ((hk₃.trans hk₄).free hjrnew.fresh).free hjsfresh
  refine ⟨?_, hk₁.trans hk, ?_⟩
  · unfold Rds.ssdsServerProcess
    rw [hsock]
    exact hpure
  · rcases hleft with ⟨hfails, rfl, hsame⟩ | ⟨hok, p, hp⟩
    · cases hmsg
      refine Or.inl ⟨hfails, by decide, ?_⟩
      rw [after_concat, malloc_free hsys hjr, free_unknown hjsfresh, hsame]
    · exact Or.inr ⟨hok, p, hp.keeps hk⟩

/-- **The rest of a session** gives nothing back that was there before. -/
theorem sessionLoop_follows (hsys : sys.Lawful res) (fuel : ℕ) :
    ∀ sv, Follows (Keeps res) (sessionLoop sys env fuel sv) (Rds.sessionLoop env fuel sv) := by
  induction fuel with
  | zero => exact fun sv => .failure _
  | succ fuel ih =>
    intro sv
    unfold sessionLoop Rds.sessionLoop
    by_cases hc : sv.clientEnd = true
    · simp only [hc, if_true]
      exact .pure _
    · simp only [hc, if_false, Bool.false_eq_true]
      have hprocess : Follows (Keeps res) (ssdsServerProcess sys env fuel sv)
          (Rds.ssdsServerProcess env fuel sv) := by
        intro calls a calls' h
        obtain ⟨hp, hk, -⟩ := ssdsServerProcess_spec hsys h
        exact ⟨hp, hk⟩
      refine hprocess.bind fun p => ?_
      by_cases hok : p.1 = .ok
      · simp only [hok, if_true]
        exact ih _
      · simp only [hok, if_false]
        exact .pure _

/-- **A session** leaves the text of its first message behind, unless there is none. -/
theorem sessionLoop_spec (hsys : sys.Lawful res) {fuel : ℕ} {sv : Server} {r : Errors × Server}
    (hend : sv.clientEnd = false) (h : (sessionLoop sys env fuel sv).run calls = some (r, calls')) :
    (ReadFails sv.sock ∧ after res calls' = after res calls) ∨
      (¬ ReadFails sv.sock ∧ ∃ p, New res calls calls' p) := by
  cases fuel with
  | zero => cases h
  | succ fuel =>
    unfold sessionLoop at h
    simp only [hend, Bool.false_eq_true, if_false] at h
    obtain ⟨⟨status, sv₁⟩, c₁, hp, h₁⟩ := run_bind_eq_some.1 h
    obtain ⟨-, -, ⟨hfails, hstatus, hsame⟩ | ⟨hok, p, hnew⟩⟩ := ssdsServerProcess_spec hsys hp
    · simp only [hstatus, if_false] at h₁
      cases h₁
      exact Or.inl ⟨hfails, hsame⟩
    · refine Or.inr ⟨hok, p, ?_⟩
      by_cases hstatus : status = .ok
      · simp only [hstatus, if_true] at h₁
        exact hnew.keeps (sessionLoop_follows hsys fuel _ _ _ _ h₁).2
      · simp only [hstatus, if_false] at h₁
        cases h₁
        exact hnew

/-- A call of `ssds_accept`. -/
theorem accept_run {fd : Option Fd} (h : (accept sys).run calls = some (fd, calls')) :
    sys.accept calls = fd ∧ ∃ block, (fd.isSome → block.isSome) ∧
      calls' = calls ++ [.accept fd block] := by
  obtain ⟨c, c₁, hget, h⟩ := run_bind_eq_some.1 h
  cases hget
  cases hfd : sys.accept calls with
  | none =>
    rw [hfd] at h
    cases h
    exact ⟨rfl, none, fun h => h, rfl⟩
  | some fd' =>
    rw [hfd] at h
    cases hitem : sys.item calls with
    | none =>
      rw [hitem] at h
      cases h
    | some block =>
      rw [hitem] at h
      cases h
      exact ⟨rfl, some block, fun _ => rfl, rfl⟩

theorem accept_answered (hsys : sys.Lawful res) {fd : Option Fd} {block : ItemBlock}
    (hfd : sys.accept [] = fd) (hblock : fd.isSome → block.isSome) :
    Along GcCall.resources Answered res [.accept fd block] := by
  refine ⟨⟨?_, hblock⟩, trivial⟩
  rintro fd' rfl
  exact hsys.accept [] fd' hfd

/-- **The whole session**, from `ssds_accept` to `ssds_close`. -/
theorem ssdsServerAcceptConnection_spec (hsys : sys.Lawful res) {fuel : ℕ} {sock : Sock}
    {sv : Server} {r : Errors × Server}
    (h : (ssdsServerAcceptConnection sys env fuel sock sv).run [] = some (r, calls)) :
    Rds.ssdsServerAcceptConnection env fuel ((sys.accept []).map fun _ => sock) sv = .ok r ∧
      Along GcCall.resources Answered res calls ∧
      (after res calls = res ↔ sys.accept [] = none ∨ ReadFails sock) := by
  obtain ⟨fd, c₁, haccept, h₁⟩ := run_bind_eq_some.1 h
  obtain ⟨hfd, block, hblock, rfl⟩ := accept_run haccept
  have hanswered := accept_answered hsys hfd hblock
  cases fd with
  | none =>
    cases h₁
    rw [hfd]
    refine ⟨rfl, Along.concat_iff.2 ⟨hanswered, trivial, trivial⟩, fun _ => Or.inl rfl, fun _ => ?_⟩
    rw [after_concat]
    show ({ res with socks := res.socks.erase (-1) } : Resources) = res
    rw [Finset.erase_eq_of_notMem hsys.descriptor]
  | some fd =>
    obtain ⟨r₁, c₂, hloop, h₂⟩ := run_bind_eq_some.1 h₁
    cases h₂
    obtain ⟨hpure, hk⟩ := sessionLoop_follows hsys fuel _ _ _ _ hloop
    have hfresh : fd ∉ res.socks := hsys.accept [] fd hfd
    obtain ⟨b, rfl⟩ := Option.isSome_iff_exists.1 (hblock rfl)
    have hopened : after res ([] ++ [.accept (some fd) (some b)]) =
        { res with socks := insert fd res.socks } := rfl
    rw [hfd]
    refine ⟨hpure, Along.concat_iff.2 ⟨hk.answered hanswered, trivial, trivial⟩, ?_⟩
    rw [after_concat]
    rcases sessionLoop_spec hsys rfl hloop with ⟨hfails, hsame⟩ | ⟨hok, p, hnew⟩
    · refine ⟨fun _ => Or.inr hfails, fun _ => ?_⟩
      rw [hsame, hopened]
      simp only [GcCall.resources, Finset.erase_insert hfresh]
    · constructor
      · intro heq
        have hptrs : ((GcCall.close fd).resources (after res c₂)).ptrs = res.ptrs :=
          congrArg Resources.ptrs heq
        change (after res c₂).ptrs = res.ptrs at hptrs
        have hlive := hnew.live
        have hbefore := hnew.fresh
        rw [hptrs] at hlive
        rw [hopened] at hbefore
        exact absurd hlive hbefore
      · rintro (hnone | hfails)
        · cases hnone
        · exact absurd hfails hok

/-! ## The collector -/

/-- A call that gets its block does not make the program exit. -/
theorem onList_of_granted {call : GcCall} (h : call.Granted) (l : GcItems) :
    ∃ l', call.onList l = .ok l' := by
  cases call with
  | malloc _ p block | calloc _ _ p block =>
    cases p with
    | none => exact ⟨l, rfl⟩
    | some p =>
      obtain ⟨b, rfl⟩ := Option.isSome_iff_exists.1 (h rfl)
      exact ⟨_, rfl⟩
  | realloc old _ p block =>
    cases p with
    | none => exact ⟨l, rfl⟩
    | some p =>
      by_cases hp : p = old
      · rw [hp]
        exact ⟨l, GcCall.onList_stayed l old _ block⟩
      · obtain ⟨b, rfl⟩ := Option.isSome_iff_exists.1 (h rfl fun heq => hp (Option.some.inj heq))
        exact ⟨_, GcCall.onList_moved hp l _ (some b)⟩
  | socket fd block | accept fd block =>
    cases fd with
    | none => exact ⟨l, rfl⟩
    | some fd =>
      obtain ⟨b, rfl⟩ := Option.isSome_iff_exists.1 (h rfl)
      exact ⟨_, rfl⟩
  | push _ _ block =>
    obtain ⟨b, rfl⟩ := Option.isSome_iff_exists.1 h
    exact ⟨_, rfl⟩
  | free _ | close _ | remove _ _ => exact ⟨_, rfl⟩

/-- What is asked of a step for the collector to go on tracking: the block of a new item is
none that is in use, and a search finds the right kind. -/
def SoundStep (st : TrackState) (call : GcCall) : Prop := FreshStep st.1 call ∧ RightKind st call

/-- One call that is answered. -/
theorem tracked_call {gc : SsdsGc} {call : GcCall} (h : Tracked (.ok (.running gc), res))
    (hcall : Answered res call) (hsound : SoundStep (.ok (.running gc), res) call) :
    ∃ gc', trackStep (.ok (.running gc), res) call = (.ok (.running gc'), call.resources res) ∧
      Tracked (.ok (.running gc'), call.resources res) := by
  obtain ⟨l, hr, hexact, -⟩ := h
  obtain ⟨hfresh, hright⟩ := hsound
  obtain ⟨l', hl'⟩ := onList_of_granted hcall.2 l
  have hagrees : Agrees (gcStep (.ok (.running gc)) call) (call.onList l) :=
    GcCall.run_view hr (hfresh gc rfl)
  have hlist : TrackedList (call.resources res) (call.onList l) :=
    (GcCall.tracked_iff hexact hcall.1).2 ((rightKind_iff hr res call).1 hright)
  rw [hl'] at hagrees hlist
  match hst : gcStep (.ok (.running gc)) call, hagrees with
  | .ok (.running gc'), hagrees =>
    refine ⟨gc', ?_, (tracked_running hagrees _).2 hlist⟩
    unfold trackStep
    rw [hst]

/-- **The collector tracks what there is** after calls that are answered. -/
theorem tracked_calls : ∀ {gc : SsdsGc} {res : Resources},
    Tracked (.ok (.running gc), res) → Along GcCall.resources Answered res calls →
      Along trackStep SoundStep (.ok (.running gc), res) calls →
        ∃ gc', calls.foldl trackStep (.ok (.running gc), res) =
          (.ok (.running gc'), after res calls) ∧
            Tracked (.ok (.running gc'), after res calls) := by
  induction calls with
  | nil => exact fun h _ _ => ⟨_, rfl, h⟩
  | cons call calls ih =>
    intro gc res h ⟨hcall, hcalls⟩ ⟨hsound, hsounds⟩
    obtain ⟨gc₁, hstep, htracked⟩ := tracked_call h hcall hsound
    rw [hstep] at hsounds
    obtain ⟨gc', hrun, hend⟩ := ih htracked hcalls hsounds
    refine ⟨gc', ?_, hend⟩
    rw [List.foldl_cons, hstep]
    exact hrun

/-- What the collector tracks, as its cleanup would give it back. -/
def tracks (gc : SsdsGc) : List Release :=
  match ssdsGcCleanup gc with
  | .ok (released, _) => released
  | .error _ => []

/-- Exact tracking of the same is tracking of the same resources. -/
theorem tracks_perm_iff {gc gc' : SsdsGc} {res' : Resources}
    (h : Tracked (.ok (.running gc), res)) (h' : Tracked (.ok (.running gc'), res')) :
    (tracks gc').Perm (tracks gc) ↔ res' = res := by
  obtain ⟨l, -, -, released, heap, hclean, honce⟩ := h
  obtain ⟨l', -, -, released', heap', hclean', honce'⟩ := h'
  have htracks : tracks gc = released := by
    unfold tracks
    rw [hclean]
  have htracks' : tracks gc' = released' := by
    unfold tracks
    rw [hclean']
  have hone : ∀ {p q : Prop} [Decidable p] [Decidable q],
      ((if p then 1 else 0) = if q then 1 else (0 : ℕ)) → (p ↔ q) := by
    intro p q _ _ heq
    by_cases hp : p <;> by_cases hq : q <;> simp [hp, hq] at heq ⊢
  rw [htracks, htracks', List.perm_iff_count]
  constructor
  · intro hperm
    have hptrs : res'.ptrs = res.ptrs := by
      ext p
      have hp := hperm (.free p)
      rw [honce.ptr, honce'.ptr] at hp
      exact hone hp
    have hsocks : res'.socks = res.socks := by
      ext fd
      have hfd := hperm (.close fd)
      rw [honce.sock, honce'.sock] at hfd
      exact hone hfd
    obtain ⟨ptrs, socks⟩ := res
    obtain ⟨ptrs', socks'⟩ := res'
    simp only at hptrs hsocks
    rw [hptrs, hsocks]
  · rintro rfl x
    cases x with
    | free p => rw [honce.ptr, honce'.ptr]
    | close fd => rw [honce.sock, honce'.sock]

/-- **What a session leaves behind.** Whatever the client sends and the system answers, a session
that returns has given back all it took exactly if nothing was accepted or the first read
failed. A collector that tracks exactly, and goes on to, then tracks what it did before exactly
in this case. -/
theorem session_leaves_nothing_iff (hsys : sys.Lawful res) {fuel : ℕ} {sock : Sock} {sv : Server}
    {r : Errors × Server}
    (h : (ssdsServerAcceptConnection sys env fuel sock sv).run [] = some (r, calls)) :
    (after res calls = res ↔ sys.accept [] = none ∨ ReadFails sock) ∧
      ∀ gc, Tracked (.ok (.running gc), res) →
        Along trackStep SoundStep (.ok (.running gc), res) calls →
          ∃ gc', (calls.foldl trackStep (.ok (.running gc), res)).1 = .ok (.running gc') ∧
            ((tracks gc').Perm (tracks gc) ↔ sys.accept [] = none ∨ ReadFails sock) := by
  obtain ⟨-, hanswered, hiff⟩ := ssdsServerAcceptConnection_spec hsys h
  refine ⟨hiff, ?_⟩
  intro gc htracked hsound
  obtain ⟨gc', hrun, htracked'⟩ := tracked_calls htracked hanswered hsound
  refine ⟨gc', by rw [hrun], ?_⟩
  rw [tracks_perm_iff htracked htracked']
  exact hiff

/-! ## One session -/

/-- A block that no call before got. -/
def freshBlock (calls : List GcCall) (hi : UInt32) : Option Address :=
  if ⟨calls.length.toUInt32, hi⟩ ∈ (after .none calls).ptrs then none
  else some ⟨calls.length.toUInt32, hi⟩

/-- A system that has a block for every call, and descriptor 5. -/
def plainSystem : System where
  malloc calls := freshBlock calls 1
  realloc calls _ := freshBlock calls 1
  item calls := some (⟨calls.length.toUInt32, 2⟩, ⟨.null⟩)
  accept calls := if 5 ∈ (after .none calls).socks then none else some 5
  json calls := freshBlock calls 3

theorem freshBlock_spec {calls : List GcCall} {hi : UInt32} {p : Address}
    (h : freshBlock calls hi = some p) : p.hi = hi ∧ p ∉ (after .none calls).ptrs := by
  unfold freshBlock at h
  split at h
  · cases h
  · cases h
    exact ⟨rfl, ‹_›⟩

theorem plainSystem_lawful : plainSystem.Lawful .none where
  malloc calls p h := by
    obtain ⟨hhi, hfresh⟩ := freshBlock_spec h
    refine ⟨?_, hfresh⟩
    rintro rfl
    cases hhi
  realloc calls old p h := by
    obtain ⟨hhi, hfresh⟩ := freshBlock_spec h
    refine ⟨?_, fun _ => hfresh⟩
    rintro rfl
    cases hhi
  accept calls fd h := by
    have h' : (if 5 ∈ (after .none calls).socks then none else some 5) = some fd := h
    split at h'
    · cases h'
    · cases h'
      assumption
  json calls p h := (freshBlock_spec h).2
  descriptor := Finset.notMem_empty _

/-- A request for dependencies. -/
def dependencyDoc : Json := .obj [("code", .int Code.getDependency.num)]

def dependencyText : List Byte := printed dependencyDoc

/-- Surroundings that know it. -/
def dependencyEnv : Env := plainEnv (loadOnly dependencyText dependencyDoc)

/-- A connection that brings it. -/
def dependencySock : Sock := ⟨[.got dependencyText (by decide)], false⟩

/-- What the session asks for: it answers and ends. -/
def dependencyCalls : List GcCall :=
  [.accept (some 5) (some (⟨0, 2⟩, ⟨.null⟩)), .malloc 2000 (some ⟨1, 1⟩) (some (⟨1, 2⟩, ⟨.null⟩)),
    .malloc 48 (some ⟨2, 1⟩) (some (⟨2, 2⟩, ⟨.null⟩)), .free ⟨2, 1⟩, .free ⟨2, 3⟩, .close 5]

theorem dependencyCalls_run : ∃ r,
    (ssdsServerAcceptConnection plainSystem dependencyEnv 2 dependencySock
      (plainServer dependencySock)).run [] = some (r, dependencyCalls) := ⟨_, rfl⟩

theorem dependencyCalls_sound : Along trackStep SoundStep trackInit dependencyCalls := by
  refine ⟨⟨?_, ?_⟩, ⟨?_, ?_⟩, ⟨?_, ?_⟩, ⟨fun _ _ => trivial, ?_⟩, ⟨fun _ _ => trivial, ?_⟩,
    ⟨fun _ _ => trivial, ?_⟩, trivial⟩
  · intro gc h a junk hb
    cases h
    cases hb
    rfl
  · intro gc _ data type hr
    cases hr
  · intro gc h a junk hb
    cases h
    cases hb
    rfl
  · intro gc _ data type hr
    cases hr
  · intro gc h a junk hb
    cases h
    cases hb
    rfl
  · intro gc _ data type hr
    cases hr
  · -- the reader is there
    intro gc h data type hr a c hs hg
    cases h
    cases hr
    cases hs
    cases hg
    rfl
  · -- the answer is not
    intro gc h data type hr a c hs
    cases h
    cases hr
    cases hs
  · -- the socket is there
    intro gc h data type hr a c hs hg
    cases h
    cases hr
    cases hs
    cases hg
    rfl

theorem session_leaves_nothing_iff_dependency :
    (after .none dependencyCalls = .none ↔
      plainSystem.accept [] = none ∨ ReadFails dependencySock) ∧
    ∃ gc', (dependencyCalls.foldl trackStep trackInit).1 = .ok (.running gc') ∧
      ((tracks gc').Perm (tracks ssdsGcInit) ↔
        plainSystem.accept [] = none ∨ ReadFails dependencySock) := by
  obtain ⟨r, hrun⟩ := dependencyCalls_run
  obtain ⟨hresources, hcollector⟩ := session_leaves_nothing_iff plainSystem_lawful hrun
  exact ⟨hresources, hcollector _ tracked_trackInit dependencyCalls_sound⟩

/-- **The text of a message is never freed**: the collector tracked nothing before the session,
and a pointer after it. -/
theorem session_leaves_text :
    plainSystem.Lawful .none ∧ Along trackStep SoundStep trackInit dependencyCalls ∧
    (∃ r, (ssdsServerAcceptConnection plainSystem dependencyEnv 2 dependencySock
      (plainServer dependencySock)).run [] = some (r, dependencyCalls)) ∧
    ∃ gc', (dependencyCalls.foldl trackStep trackInit).1 = .ok (.running gc') ∧
      tracks ssdsGcInit = [] ∧ tracks gc' = [.free ⟨1, 1⟩] :=
  ⟨plainSystem_lawful, dependencyCalls_sound, dependencyCalls_run, _, rfl, rfl, by decide⟩

end Rds.Collected
