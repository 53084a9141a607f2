import Rds.Proof.Complete

/-!
# One turn of the server

What `ssds_server_process` does with a message that came as one, and the data behind it.

* `getBranch_crashes`: a request never waits for data.
* `upload_waits_iff`: when an upload waits for more than there is.
* `Server.Fed.of_short`: a file that ends in a short read is enough for it.
* `upload_turn`, `request_turn`: the replies of one turn.
-/

namespace Rds

variable {α β : Type} {env : Env} {u : Upload}

/-! ## A request waits for nothing -/

/-- What halts here crashes. -/
def Crashes (x : Except Halt α) : Prop := ∀ e, x = .error e → e = .crash

theorem Crashes.ok (a : α) : Crashes (.ok a : Except Halt α) := by
  intro e h
  cases h

theorem Crashes.crash : Crashes (.error .crash : Except Halt α) := by
  intro e h
  cases h
  rfl

theorem Crashes.bind {x : Except Halt α} {f : α → Except Halt β} (hx : Crashes x)
    (hf : ∀ a, Crashes (f a)) : Crashes (x >>= f) := by
  intro e h
  cases hr : x with
  | error e' =>
    rw [hr] at h
    cases h
    exact hx _ hr
  | ok a =>
    rw [hr] at h
    exact hf a e h

theorem Crashes.foldlM {f : β → α → Except Halt β} (hf : ∀ b a, Crashes (f b a)) (l : List α) :
    ∀ b, Crashes (l.foldlM f b) := by
  induction l with
  | nil => exact fun b => .ok b
  | cons a l ih =>
    intro b
    rw [List.foldlM_cons]
    exact (hf b a).bind ih

theorem Crashes.mapM {f : α → Except Halt β} (hf : ∀ a, Crashes (f a)) (l : List α) :
    Crashes (l.mapM f) := by
  induction l with
  | nil => exact .ok []
  | cons a l ih =>
    rw [List.mapM_cons]
    exact (hf a).bind fun b => ih.bind fun bs => .ok _

theorem Ptr.get_crashes (p : Ptr α) : Crashes p.get := by
  cases p with
  | null => exact .ok none
  | good a => exact .ok _
  | wild => exact .crash

theorem getPackagesLoop_crashes (array : Option JsonArray) (n : ℕ) :
    ∀ i pkgs, Crashes (getPackagesLoop array n i pkgs) := by
  induction n with
  | zero => exact fun i pkgs => .ok pkgs
  | succ n ih =>
    intro i pkgs
    unfold getPackagesLoop
    cases jsonArrayGetStringElement array i with
    | none => exact .crash
    | some word => exact ih _ _

theorem requestPkgs_crashes (junk : ℕ → Ptr String) (op : Code) (json : SsdsJsonRead) :
    Crashes (requestPkgs junk op json) := by
  unfold requestPkgs
  split
  · exact .ok _
  · refine Crashes.bind ?_ fun n => Crashes.bind ?_ fun pkgs => .ok _
    · exact (Ptr.get_crashes _).bind fun root => .ok _
    · refine (Ptr.get_crashes _).bind fun obj => ?_
      exact (getPackagesLoop_crashes _ _ _ _).bind fun p => .ok _

theorem repoUrlLoop_crashes (urlArr : Option JsonArray) (n : ℕ) :
    ∀ j, Crashes (repoUrlLoop urlArr n j) := by
  induction n with
  | zero => exact fun j => .ok []
  | succ n ih =>
    intro j
    unfold repoUrlLoop
    cases jsonArrayGetStringElement urlArr j with
    | none => exact .crash
    | some word => exact (ih _).bind fun words => .ok _

theorem ssdsJsRdRepoInfo_crashes (json : SsdsJsonRead) : Crashes (ssdsJsRdRepoInfo json) := by
  refine (Ptr.get_crashes _).bind fun obj => Crashes.mapM (fun i => ?_) _
  unfold repoInfoAt
  simp only
  split
  · exact .crash
  · exact (repoUrlLoop_crashes _ _ _).bind fun urls => .ok _

theorem requestNames_crashes (request : ℕ → Ptr String) (n : ℕ) :
    Crashes (requestNames request n) := by
  have hfrom : ∀ n i, Crashes (namesFrom request n i) := by
    intro n
    induction n with
    | zero => exact fun i => .ok []
    | succ n ih =>
      intro i
      unfold namesFrom
      cases request i with
      | null => exact .ok []
      | wild => exact .crash
      | good s => exact (ih _).bind fun names => .ok _
  unfold requestNames
  split
  · exact hfrom _ _
  · split
    · exact .ok _
    · exact .crash

theorem ssdsJsCrAddArrayMember_crashes (json : SsdsJsonCreate) (data : JsData) :
    Crashes (ssdsJsCrAddArrayMember json data) := by
  refine (Ptr.get_crashes _).bind fun arr => ?_
  cases data <;> exact .ok _

theorem ssdsJsCrAddObjMember_crashes (json : SsdsJsonCreate) (data : JsData) (name : String) :
    Crashes (ssdsJsCrAddObjMember json data name) := by
  refine (Ptr.get_crashes _).bind fun obj => ?_
  cases data <;> exact .ok _

theorem ssdsJsCrNewData_crashes (json : SsdsJsonCreate) (data : JsData) (name : String) :
    Crashes (ssdsJsCrNewData json data name) := by
  unfold ssdsJsCrNewData
  cases data with
  | int n => exact (Ptr.get_crashes _).bind fun obj => .ok _
  | obj => exact .ok _
  | array => exact .ok _
  | string s => exact .ok _
  | bool b => exact .ok _

theorem insertPkg_crashes (json : SsdsJsonCreate) (pkg : HyPackage) :
    Crashes (insertPkg json pkg) := by
  unfold insertPkg
  refine (ssdsJsCrAddArrayMember_crashes _ _).bind fun json => ?_
  refine (ssdsJsCrAddObjMember_crashes _ _ _).bind fun json => ?_
  refine (ssdsJsCrAddObjMember_crashes _ _ _).bind fun json => ?_
  split
  · exact (ssdsJsCrAddObjMember_crashes _ _ _).bind fun json => ssdsJsCrAddObjMember_crashes _ _ _
  · exact (ssdsJsCrAddObjMember_crashes _ _ _).bind fun json => ssdsJsCrAddObjMember_crashes _ _ _

theorem ssdsJsCrPkgsInsert_crashes (json : SsdsJsonCreate) (goal : HySolution) :
    Crashes (ssdsJsCrPkgsInsert json goal) := by
  refine Crashes.foldlM (fun json a => ?_) _ _
  have hpkgs : ∀ json pkgs, Crashes (insertPkgs json pkgs) :=
    fun json pkgs => Crashes.foldlM insertPkg_crashes _ _
  unfold insertArray
  simp only
  split
  · exact (ssdsJsCrNewData_crashes _ _ _).bind fun json => hpkgs _ _
  · exact (Crashes.ok _).bind fun json => hpkgs _ _

theorem ssdsDepQuery_crashes (hy : Hawkey) (request : ℕ → Ptr String) (answer : SsdsJsonCreate)
    (sack : HySack) (op : Code) (n : ℕ) : Crashes (ssdsDepQuery hy request answer sack op n) := by
  unfold ssdsDepQuery
  simp only
  split
  · exact (ssdsJsCrPkgsInsert_crashes _ _).bind fun answer => .ok _
  · refine (requestNames_crashes _ _).bind fun names => ?_
    split
    · exact (ssdsJsCrPkgsInsert_crashes _ _).bind fun answer => .ok _
    · exact .ok _

/-- **A request never waits for data**: what halts its branch crashes. -/
theorem getBranch_crashes (op : Code) (js : SsdsJsonCreate) (json : SsdsJsonRead) (sv : Server) :
    Crashes (getBranch env op js json sv) := by
  unfold getBranch
  refine (requestPkgs_crashes _ _ _).bind fun p => ?_
  refine (ssdsJsRdRepoInfo_crashes _).bind fun list => ?_
  exact (ssdsDepQuery_crashes _ _ _ _ _ _).bind fun r => .ok _

/-! ## An upload waits for more than there is -/

theorem recvLoop_blocked {closed : Bool} {reads : List ReadRes} {m : RecvLoop} {b : List Byte}
    (hm : m.Ok b) (h : recvLoop closed reads m = .error .blocked) :
    closed = false ∧ (∀ r ∈ reads, ¬ r.Short) ∧
      (reads = [] ∨ m.readCount + reads.length < recvLimit) := by
  induction reads generalizing m b with
  | nil =>
    unfold recvLoop at h
    cases closed with
    | false => exact ⟨rfl, by simp, Or.inl rfl⟩
    | true =>
      by_cases hl : m.readCount + 1 < recvLimit
      · obtain ⟨m', hs, -⟩ := RecvLoop.turn hm .eof hl
        rw [if_pos rfl, hs] at h
        cases h
      · rw [if_pos rfl, RecvLoop.turn_crash hm _ hl] at h
        cases h
  | cons r reads ih =>
    unfold recvLoop at h
    by_cases hl : m.readCount + 1 < recvLimit
    · obtain ⟨m', hs, hok, hcount, -⟩ := RecvLoop.turn hm r hl
      rw [hs] at h
      by_cases hr : r.Short
      · simp only [bind, Except.bind, if_pos hr] at h
        cases h
      · simp only [bind, Except.bind, if_neg hr] at h
        obtain ⟨hc, hfull, hlen⟩ := ih hok h
        refine ⟨hc, List.forall_mem_cons.2 ⟨hr, hfull⟩, Or.inr ?_⟩
        rw [List.length_cons]
        rcases hlen with rfl | hlen
        · rw [List.length_nil]
          omega
        · omega
    · rw [RecvLoop.turn_crash hm _ hl] at h
      cases h

/-- **A receive that waits** has read full blocks only. -/
theorem sockSolvRecv_blocked {s : Sock} (h : sockSolvRecv s = .error .blocked) :
    s.closed = false ∧ (∀ r ∈ s.reads, ¬ r.Short) ∧ s.reads.length ≤ recvLimit := by
  unfold sockSolvRecv at h
  rcases bind_eq_error.1 h with hread | ⟨⟨r, t⟩, hread, h⟩
  · unfold ssdsRead at hread
    split at hread
    · cases hread
    · rename_i hnil
      split at hread
      · cases hread
      · rename_i hc
        rw [hnil]
        exact ⟨Bool.eq_false_iff.2 hc, by simp, Nat.zero_le _⟩
  · rcases pull_cases (pull_eq_some.2 hread) with ⟨rs, hrs, rfl⟩ | ⟨-, -, rfl, -⟩
    · cases r with
      | err => cases h
      | got bs le =>
        simp only at h
        split at h
        · rename_i hbs
          rcases bind_eq_error.1 h with hloop | ⟨p, -, h⟩
          · obtain ⟨hc, hfull, hlen⟩ := recvLoop_blocked (RecvLoop.init_ok _) hloop
            have hfirst : ¬ (ReadRes.got bs le).Short := by rw [ReadRes.short_got]; omega
            refine ⟨hc, ?_, ?_⟩
            · rw [hrs]
              exact List.forall_mem_cons.2 ⟨hfirst, hfull⟩
            · rw [hrs, List.length_cons]
              simp only [RecvLoop.init] at hlen
              rcases hlen with rfl | hlen
              · decide
              · omega
          · cases h
        · cases h
    · simp only [ReadRes.eof] at h
      split at h
      · rename_i hbs
        cases hbs
      · cases h

theorem recvLoop_waits {reads : List ReadRes} {m : RecvLoop} {b : List Byte} (hm : m.Ok b)
    (hfull : ∀ r ∈ reads, ¬ r.Short) (hlen : reads = [] ∨ m.readCount + reads.length < recvLimit) :
    recvLoop false reads m = .error .blocked := by
  induction reads generalizing m b with
  | nil => rfl
  | cons r reads ih =>
    have hlen' : m.readCount + (reads.length + 1) < recvLimit := by
      rcases hlen with hnil | hlen
      · cases hnil
      · exact hlen
    obtain ⟨hr, hrest⟩ := List.forall_mem_cons.1 hfull
    obtain ⟨m', hs, hok, hcount, -⟩ := RecvLoop.turn hm r (by omega)
    unfold recvLoop
    rw [hs]
    simp only [bind, Except.bind, if_neg hr]
    exact ih hok hrest (Or.inr (by omega))

/-- Full reads only, and it waits. -/
theorem sockSolvRecv_waits {reads : List ReadRes} (hfull : ∀ r ∈ reads, ¬ r.Short)
    (hlen : reads.length ≤ recvLimit) : sockSolvRecv ⟨reads, false⟩ = .error .blocked := by
  cases reads with
  | nil => rfl
  | cons r reads =>
    obtain ⟨hr, hrest⟩ := List.forall_mem_cons.1 hfull
    have hloop : recvLoop false reads (.init r) = .error .blocked := by
      refine recvLoop_waits (RecvLoop.init_ok r) hrest ?_
      rw [List.length_cons] at hlen
      rcases Nat.eq_zero_or_pos reads.length with h0 | hpos
      · exact Or.inl (List.length_eq_zero_iff.1 h0)
      · refine Or.inr ?_
        simp only [RecvLoop.init]
        omega
    cases r with
    | err => exact absurd ReadRes.short_err hr
    | got bs le =>
      have hbs : bs.length = maxInputLen := by
        rw [ReadRes.short_got] at hr
        omega
      unfold sockSolvRecv
      simp only [ssdsRead, bind, Except.bind, if_pos hbs]
      rw [hloop]

/-- **The data of an upload of `n` bytes run out on the loop**, `w` of them counted, from the
`k`-th question on: after frames that are stored and do not reach the count, there are full
blocks only. -/
inductive Starves (env : Env) (n : ℤ) : ℕ → ℤ → List ReadRes → Prop
  | waits {k w rs} : (∀ r ∈ rs, ¬ ReadRes.Short r) → rs.length ≤ recvLimit → Starves env n k w rs
  | more {k w g x rs} : (∀ r ∈ g, ¬ ReadRes.Short r) → ReadRes.Short x → g.length < recvLimit →
      0 ≤ frameRet g x → frameRet g x ≤ env.fwrite k → toInt (w + frameRet g x) ≠ n →
      Starves env n (k + 1) (toInt (w + frameRet g x)) rs → Starves env n k w (g ++ x :: rs)

/-- **The loop waits for more than there is** only on data that run out. -/
theorem uploadLoop_blocked {n w : ℤ} {fuel : ℕ} {json : SsdsJsonCreate} {sv : Server}
    (hopen : sv.sock.closed = false) (h : uploadLoop env u n fuel w json sv = .error .blocked) :
    Starves env n sv.tick w sv.sock.reads := by
  induction fuel generalizing w sv with
  | zero => cases h
  | succ fuel ih =>
    rw [uploadLoop] at h
    rcases bind_eq_error.1 h with hrecv | ⟨⟨⟨ret, buf⟩, t⟩, hrecv, h⟩
    · obtain ⟨-, hfull, hlen⟩ := sockSolvRecv_blocked hrecv
      exact .waits hfull hlen
    · obtain ⟨g, x, hf, hl, rfl, rfl⟩ := sockSolvRecv_iff.1 hrecv
      simp only [toInt_frameRet hf.short_last hl] at h
      have hturn : _ ∨ _ := @fwriteFile_frame env u sv u.file g x hf.long rfl t
      rcases hturn with ⟨hs, hw⟩ | ⟨hs, hw⟩
      · have h0 : ¬ frameRet g x < 0 := not_lt.2 hs.1
        simp only [hw, if_neg h0] at h
        by_cases hn : toInt (w + frameRet g x) = n
        · rw [if_pos hn] at h
          cases h
        · rw [if_neg hn] at h
          have htc : t.closed = false := hf.rest.closed.trans hopen
          have hrest := ih (by rw [Server.stored_sock]; exact htc) h
          rw [Server.stored_tick, Server.stored_sock] at hrest
          rcases hf.reads_eq with hreads | ⟨hc, -⟩
          · rw [hreads]
            exact .more hf.long hf.short_last hl hs.1 hs.2 hn hrest
          · rw [hopen] at hc
            cases hc
      · obtain ⟨sv₁, hw₁⟩ : ∃ sv₁, fwriteFile env { sv with sock := t } u.file (frameRet g x)
            (frameBuf g x) = (false, sv₁) := ⟨_, Prod.ext hw rfl⟩
        simp only [hw₁] at h
        cases h

/-- **On data that run out the loop waits**, given enough fuel to get there. -/
theorem Starves.uploadLoop {n w : ℤ} {k : ℕ} {rs : List ReadRes} (h : Starves env n k w rs) :
    ∀ (json : SsdsJsonCreate) (sv : Server), sv.tick = k → sv.sock = ⟨rs, false⟩ →
      ∃ fuel, uploadLoop env u n fuel w json sv = .error .blocked := by
  induction h with
  | waits hfull hlen =>
    intro json sv _ hsock
    refine ⟨1, ?_⟩
    rw [Rds.uploadLoop, hsock, sockSolvRecv_waits hfull hlen]
    rfl
  | @more k w g x rs hg hx hl h0 hcap hn _ ih =>
    intro json sv htick hsock
    have hf : SockFrame sv.sock g x ⟨rs, false⟩ := by
      rw [hsock]
      exact .of_reads hg hx rs false
    obtain ⟨fuel, hfuel⟩ := ih json (sv.stored u ⟨rs, false⟩ (frameData g x))
      (by rw [Server.stored_tick, htick]) (Server.stored_sock _ _ _ _)
    refine ⟨fuel + 1, ?_⟩
    rw [Rds.uploadLoop, sockSolvRecv_iff.2 ⟨g, x, hf, hl, rfl, rfl⟩]
    have hturn : _ ∨ _ := @fwriteFile_frame env u sv u.file g x hg rfl ⟨rs, false⟩
    rcases hturn with ⟨-, hw⟩ | ⟨hs, -⟩
    · simp only [bind, Except.bind, toInt_frameRet hx hl, hw, if_neg (not_lt.2 h0), if_neg hn]
      exact hfuel
    · exact absurd ⟨h0, htick ▸ hcap⟩ hs

/-! ## One message -/

/-- **A message that comes as one**: its reads are a frame of their own, and their text is the
message's. -/
structure MessageReads (env : Env) (m : Json) (h : List ReadRes) : Prop where
  frame : IsFrame h
  delivers : ∀ r ∈ h, r.Delivers
  load : env.load (cstr (bytesOf h)) = some (some m)

variable {m : Json} {h ds : List ReadRes} {sv sv' : Server} {fuel : ℕ} {status : Errors}

theorem MessageReads.recv (hm : MessageReads env m h) (rest : List ReadRes) :
    ∃ b, sockRecv ⟨h ++ rest, false⟩ = .ok (some b, ⟨rest, false⟩) ∧
      env.load (cstr b) = some (some m) := by
  obtain ⟨b, hrecv, hcstr⟩ := hm.frame.recv hm.delivers rest false
  exact ⟨b, hrecv, by rw [hcstr, hm.load]⟩

/-- A turn of the server on such a message is its `switch`. -/
theorem MessageReads.process (hm : MessageReads env m h) (hs : sv.sock = ⟨h ++ ds, false⟩) :
    ssdsServerProcess env fuel sv =
      serverSwitch env fuel (.ofRoot (some m)) (sv.received ⟨ds, false⟩) := by
  obtain ⟨b, hrecv, hload⟩ := hm.recv ds
  unfold ssdsServerProcess
  rw [hs, hrecv]
  show serverMessage env fuel (some b) _ _ = _
  rw [serverMessage_some, ssdsJsRdParse_some hload]
  rfl

/-- **When the turn of an upload waits** for more than there is. -/
theorem upload_waits_iff {f : UploadFile} {n : ℤ} (hm : MessageReads env m h)
    (hs : sv.sock = ⟨h ++ ds, false⟩) (hcode : replyCode m = .ok f.code.num)
    (hn : ssdsJsRdGetReadBytes (.ofRoot (some m)) = .ok n)
    (hopen : env.fopen (sv.tick + 1) = true) :
    (∃ fuel, ssdsServerProcess env fuel sv = .error .blocked) ↔
      Starves env n (sv.tick + 2) 0 ds := by
  set sv₀ : Server := ((sv.received ⟨ds, false⟩).setFile (uploadOf f).file []).tock with hsv₀
  have htick : sv₀.tick = sv.tick + 2 := by cases f <;> rfl
  have hsock : sv₀.sock = ⟨ds, false⟩ := by cases f <;> rfl
  have hloop : ∀ fuel, ssdsServerProcess env fuel sv = .error .blocked ↔
      uploadLoop env (uploadOf f) n fuel 0 (ssdsJsCrInit .answerOk) sv₀ = .error .blocked := by
    intro fuel
    have hopen' : env.fopen (sv.received ⟨ds, false⟩).tick = true := hopen
    rw [hm.process hs, serverSwitch_upload hcode, uploadBranch, hn]
    simp only [bind, Except.bind, if_pos hopen']
    rw [← hsv₀]
    cases uploadLoop env (uploadOf f) n fuel 0 (ssdsJsCrInit .answerOk) sv₀ with
    | error e =>
      constructor <;> intro h <;> cases h <;> rfl
    | ok p =>
      constructor <;> intro h <;> cases h
  constructor
  · rintro ⟨fuel, hblocked⟩
    have hstarves := uploadLoop_blocked (by rw [hsock]) ((hloop fuel).1 hblocked)
    rw [htick, hsock] at hstarves
    exact hstarves
  · intro hstarves
    obtain ⟨fuel, hfuel⟩ :=
      hstarves.uploadLoop (u := uploadOf f) (ssdsJsCrInit .answerOk) sv₀ htick hsock
    exact ⟨fuel, (hloop fuel).2 hfuel⟩

/-- **The next message is fed**: if it announces an upload whose file can be created, then the
data behind it do not run out, and the announced count is not reached before their end. -/
def Server.Fed (env : Env) (sv : Server) : Prop :=
  ∀ h ds m f n, sv.sock.reads = h ++ ds → MessageReads env m h →
    replyCode m = .ok (UploadFile.code f).num → ssdsJsRdGetReadBytes (.ofRoot (some m)) = .ok n →
    env.fopen (sv.tick + 1) = true → ¬ Starves env n (sv.tick + 2) 0 ds ∧
      ∀ j t, Receives env n (sv.tick + 2) 0 ⟨ds, false⟩ true j t → t.reads = []

/-! ### A file that is fed -/

theorem Server.Fed.of_nil (h : sv.sock.reads = []) : sv.Fed env := by
  intro hd ds m f n hreads hm
  obtain ⟨g, x, rfl, -⟩ := hm.frame
  rw [h] at hreads
  simp at hreads

theorem IsFrame.unique {h m ds es : List ReadRes} (hh : IsFrame h) (hm : IsFrame m)
    (heq : h ++ ds = m ++ es) : h = m ∧ ds = es := by
  obtain ⟨g, x, rfl, hg, hx, -⟩ := hh
  obtain ⟨g', x', rfl, hg', hx', -⟩ := hm
  induction g generalizing g' with
  | nil =>
    cases g' with
    | nil =>
      simp only [List.nil_append, List.cons_append, List.cons.injEq] at heq
      rw [heq.1, heq.2]
      exact ⟨rfl, rfl⟩
    | cons r' g' =>
      simp only [List.nil_append, List.cons_append, List.cons.injEq] at heq
      exact absurd (heq.1 ▸ hx) (hg' r' List.mem_cons_self)
  | cons r g ih =>
    cases g' with
    | nil =>
      simp only [List.nil_append, List.cons_append, List.cons.injEq] at heq
      exact absurd (heq.1 ▸ hx') (hg r List.mem_cons_self)
    | cons r' g' =>
      simp only [List.cons_append, List.cons.injEq] at heq
      have htail := ih (fun a ha => hg a (List.mem_cons_of_mem _ ha)) g' heq.2
        (fun a ha => hg' a (List.mem_cons_of_mem _ ha))
      rw [heq.1, htail.2]
      simp only [List.cons_append, htail.1, and_self]

/-- The rest of a file: it has bytes to come as long as some are missing, and ends in a short
read. -/
structure EndsShort (N w : ℕ) (rs : List ReadRes) : Prop where
  delivers : ∀ r ∈ rs, r.Delivers
  bytes : w + (bytesOf rs).length = N
  left : w < N
  short : ∀ r ∈ rs.getLast?, r.Short

/-- What a stored frame leaves of such a file: nothing once its bytes are counted, else one more. -/
theorem EndsShort.frame {N w : ℕ} (hN : N < 2 ^ 31) {g rs : List ReadRes} {x : ReadRes}
    (h : EndsShort N w (g ++ x :: rs)) (hg : ∀ r ∈ g, ¬ r.Short) :
    ∃ w', toInt (w + frameRet g x) = (w' : ℕ) ∧ (w' = N → rs = []) ∧
      (w' ≠ N → EndsShort N w' rs) := by
  have hx : x.Delivers := h.delivers x (by simp)
  have hrs : ∀ r ∈ rs, r.Delivers := fun r hr => h.delivers r (by simp [hr])
  have hbytes := h.bytes
  have hsplit : g ++ x :: rs = (g ++ [x]) ++ rs := by simp
  rw [hsplit, bytesOf_append, List.length_append] at hbytes
  refine ⟨w + (bytesOf (g ++ [x])).length, ?_, ?_, ?_⟩
  · rw [frameRet_eq hg hx.ne_err]
    push_cast
    exact toInt_eq (by omega) (by omega)
  · intro hw
    have hnil : bytesOf rs = [] := List.length_eq_zero_iff.1 (by omega)
    exact bytesOf_eq_nil hrs hnil
  · intro hw
    refine ⟨hrs, by omega, by omega, ?_⟩
    intro r hr
    have hlast := h.short
    rw [hsplit, List.getLast?_append] at hlast
    refine hlast r ?_
    rw [Option.mem_def.1 hr]
    rfl

theorem EndsShort.not_starves {N : ℕ} (hN : N < 2 ^ 31) {n w : ℤ} {k : ℕ} {rs : List ReadRes}
    (hn : n = N) (h : Starves env n k w rs) : ∀ w' : ℕ, w = w' → ¬ EndsShort N w' rs := by
  induction h with
  | @waits k w rs hfull _ =>
    intro w' hw hrs
    have hbytes := hrs.bytes
    have hleft := hrs.left
    cases hlast : rs.getLast? with
    | none =>
      rw [List.getLast?_eq_none_iff.1 hlast] at hbytes
      simp only [bytesOf, List.flatMap_nil, List.length_nil] at hbytes
      omega
    | some r => exact hfull r (List.mem_of_getLast? hlast) (hrs.short r hlast)
  | more hg _ _ _ _ hne _ ih =>
    intro w' hw hrs
    subst hw
    obtain ⟨w'', hto, -, hrest⟩ := hrs.frame hN hg
    refine ih w'' hto (hrest ?_)
    intro hfull
    rw [hto, hfull, hn] at hne
    exact hne rfl

theorem EndsShort.receives {N : ℕ} (hN : N < 2 ^ 31) {n w : ℤ} {k j : ℕ} {s t : Sock} {b : Bool}
    (hn : n = N) (h : Receives env n k w s b j t) (hb : b = true) (hc : s.closed = false) :
    ∀ w' : ℕ, w = w' → EndsShort N w' s.reads → t.reads = [] := by
  induction h with
  | fails => cases hb
  | full hf hl h0 hcap hw =>
    intro w' hw' hrs
    subst hw'
    rcases hf.reads_eq with hreads | ⟨hc', -⟩
    · rw [hreads] at hrs
      obtain ⟨w'', hto, hnil, -⟩ := hrs.frame hN hf.long
      refine hnil ?_
      rw [hto, hn] at hw
      exact_mod_cast hw
    · rw [hc] at hc'
      cases hc'
  | more hf hl h0 hcap hw _ ih =>
    intro w' hw' hrs
    subst hw'
    rcases hf.reads_eq with hreads | ⟨hc', -⟩
    · rw [hreads] at hrs
      obtain ⟨w'', hto, -, hrest⟩ := hrs.frame hN hf.long
      refine ih hb (hf.rest.closed.trans hc) w'' hto (hrest ?_)
      intro hfull
      rw [hto, hfull, hn] at hw
      exact hw rfl
    · rw [hc] at hc'
      cases hc'

/-- **A file is fed** if it is not empty and its last read is short. -/
theorem Server.Fed.of_short {f : UploadFile} {file : List Byte} (hN : file.length < 2 ^ 31)
    (hm : MessageReads env (ssdsJsCrToString (sendFileHeader f file.length)) h)
    (hs : sv.sock.reads = h ++ ds)
    (hds : EndsShort file.length 0 ds) : sv.Fed env := by
  intro h' ds' m f' n hreads hm' _ hn hopen
  obtain ⟨rfl, rfl⟩ := IsFrame.unique hm'.frame hm.frame (hreads.symm.trans hs)
  have hload := hm'.load
  rw [hm.load] at hload
  obtain rfl : ssdsJsCrToString (sendFileHeader f file.length) = m := by simpa using hload
  have hn' : n = file.length := by
    rw [sendFileHeader_readBytes f hN] at hn
    exact (Except.ok.inj hn).symm
  refine ⟨fun hstarves => EndsShort.not_starves hN hn' hstarves 0 rfl hds, ?_⟩
  intro j t hrec
  exact EndsShort.receives hN hn' hrec rfl rfl 0 rfl hds

/-! ## The replies of a turn -/

/-- **One turn on an upload**: it comes to its end, sends one reply, and goes on only with
nothing left to read. -/
theorem upload_turn {f : UploadFile} {n : ℤ} (hm : MessageReads env m h)
    (hs : sv.sock = ⟨h ++ ds, false⟩) (hcode : replyCode m = .ok f.code.num)
    (hn : ssdsJsRdGetReadBytes (.ofRoot (some m)) = .ok n) (hfed : sv.Fed env) :
    ssdsServerProcess env fuel sv ≠ .error .blocked ∧
      (ssdsServerProcess env fuel sv = .ok (status, sv') →
        (∃ r, sv'.sent = sv.sent ++ [r]) ∧
          (status = .ok → sv'.clientEnd = false → sv'.sock = ⟨[], false⟩)) := by
  have hfeed := hfed h ds m f n (by rw [hs]) hm hcode hn
  constructor
  · intro hblocked
    by_cases hopen : env.fopen (sv.tick + 1) = true
    · exact (hfeed hopen).1 ((upload_waits_iff hm hs hcode hn hopen).1 ⟨fuel, hblocked⟩)
    · have hopen' : ¬ env.fopen (sv.received ⟨ds, false⟩).tick = true := hopen
      rw [hm.process hs, serverSwitch_upload hcode, uploadBranch, hn] at hblocked
      simp only [bind, Except.bind, if_neg hopen'] at hblocked
      cases hblocked
  · intro hok
    rw [hm.process hs, serverSwitch_upload hcode] at hok
    set sv₀ : Server := sv.received ⟨ds, false⟩ with hsv₀
    have htick : (sv₀.setFile (uploadOf f).file []).tock.tick = sv.tick + 2 := by cases f <;> rfl
    have hsock : (sv₀.setFile (uploadOf f).file []).tock.sock = ⟨ds, false⟩ := by
      cases f <;> rfl
    refine ⟨(uploadBranch_frame hok).1, ?_⟩
    intro hstatus hend
    rcases (uploadBranch_ok_iff hn).1 hok with ⟨hopen, -, js', sv₁, hloop, rfl⟩ | ⟨-, hst, -⟩
    · obtain ⟨b, j, t, hrec, he⟩ := uploadLoop_receives hloop
      rw [htick, hsock] at hrec
      have hb : b = true := by
        have hclient : sv₁.clientEnd = false := hend
        rw [he.clientEnd] at hclient
        simpa using (Bool.or_eq_false_iff.1 hclient).1
      subst hb
      have hreads := (hfeed hopen).2 j t hrec
      have hrest := (uploadLoop_frame hloop).rest.closed
      have hclosed : t.closed = false := by
        rw [← he.sock, hrest, hsock]
      show sv₁.sock = ⟨[], false⟩
      rw [he.sock]
      obtain ⟨reads, closed⟩ := t
      simp only at hreads hclosed
      rw [hreads, hclosed]
    · rw [hstatus] at hst
      cases hst

/-- **One turn on a request**: it sends two replies and ends the session. -/
theorem request_turn {op : Code} (hop : op ∈ getCodes) (hm : MessageReads env m h)
    (hs : sv.sock = ⟨h ++ ds, false⟩) (hcode : replyCode m = .ok op.num) :
    ssdsServerProcess env fuel sv ≠ .error .blocked ∧
      (ssdsServerProcess env fuel sv = .ok (status, sv') →
        (∃ r r', sv'.sent = sv.sent ++ [r, r']) ∧ sv'.clientEnd = true) := by
  rw [hm.process hs, serverSwitch_get hop hcode]
  constructor
  · intro hblocked
    cases getBranch_crashes _ _ _ _ _ hblocked
  · intro hok
    unfold getBranch at hok
    obtain ⟨p, -, hok⟩ := bind_eq_ok.1 hok
    obtain ⟨list, -, hok⟩ := bind_eq_ok.1 hok
    obtain ⟨r, -, hok⟩ := bind_eq_ok.1 hok
    cases hok
    -- the acknowledgement, then what was solved
    exact ⟨⟨_, _, List.append_assoc _ _ _⟩, rfl⟩

end Rds
