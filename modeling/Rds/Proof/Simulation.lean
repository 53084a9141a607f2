import Rds.Lib.Coupling
import Rds.Proof.Isolation

/-!
# A client on two connections

What the client does depends on its connection only by what it receives. If two connections
answer alike, a run on one of them is a run on the other.

* `Simulates`: two connections that answer alike, as long as the client writes as it does.
* `clientMain_coupled`: **the runs on them agree**, and leave the two connections tied.
-/

namespace Rds

open Coupling

variable {σ τ : Type} {P : Peer σ} {Q : Peer τ} {gone : σ → Prop} {idle tied halted : σ → τ → Prop}
  {env : ClientEnv} {b : σ} {l : τ}

/-! ## What the connection keeps -/

/-- What every operation of a connection keeps. -/
structure Peer.Keeping (P : Peer σ) (gone : σ → Prop) : Prop where
  write : ∀ {b} m, gone b → gone (P.write m b)
  writeData : ∀ {b} bs, gone b → gone (P.writeData bs b)
  recv : ∀ {b}, gone b → gone (P.recv b).2

/-- The same, of a run. -/
def ConnGone (gone : σ → Prop) (s : ClientRun σ) : Prop := gone s.conn

section
variable (hk : P.Keeping gone)

include hk

theorem Peer.Keeping.writeFile (f : UploadFile) (file : List Byte) (hb : gone b) :
    gone (writeFile P f file b) := by
  have hfold : ∀ (writes : List (List Byte)) (b : σ), gone b →
      gone (writes.foldl (fun conn data => P.writeData data conn) b) := by
    intro writes
    induction writes with
    | nil => exact fun _ hb => hb
    | cons w writes ih => exact fun b hb => ih _ (hk.writeData w hb)
  exact hfold _ _ (hk.write _ hb)

theorem receive_stays : Stays (ConnGone gone) (receive P env) := by
  unfold receive
  refine Stays.get_bind fun s hs => ?_
  have hrecv : gone (P.recv s.conn).2 := hk.recv hs
  cases h : P.recv s.conn with
  | mk d c =>
    rw [h] at hrecv
    cases d <;> exact hrecv

omit hk in
/-- The end of `ssds_send_file`, from the reply on. -/
theorem acknowledged_stays (f : UploadFile) (p : SsdsJsonRead × Delivery) :
    Stays (ConnGone gone) (do
      let status ← lift (sendFileReply p.1 p.2)
      if status = .ok then record (.acknowledged f)
      return status : ClientM σ Errors) := by
  unfold lift record
  refine Stays.bind (Stays.mk _) fun status => ?_
  by_cases hok : status = .ok
  · simp only [if_pos hok]
    exact Stays.bind (Stays.modify fun _ h => h) fun _ => Stays.pure _
  · simp only [if_neg hok]
    exact Stays.pure _

theorem ssdsSendFile_stays (f : UploadFile) : Stays (ConnGone gone) (ssdsSendFile P env f) := by
  unfold ssdsSendFile
  refine Stays.get_bind fun s hs => ?_
  cases s.machine.original f with
  | none => exact hs
  | some file =>
    have hrest : Stays (ConnGone gone) (do
        record (.upload f)
        modify fun r => { r with conn := writeFile P f file r.conn }
        let p ← receive P env
        let status ← lift (sendFileReply p.1 p.2)
        if status = .ok then record (.acknowledged f)
        return status : ClientM σ Errors) := by
      refine Stays.bind (Stays.modify fun _ h => h) fun _ => ?_
      refine Stays.bind (Stays.modify fun _ h => hk.writeFile f file h) fun _ => ?_
      exact Stays.bind (receive_stays hk) (acknowledged_stays f)
    exact hrest s hs

omit hk in
/-- The backup after an upload. -/
theorem backup_stays (f : UploadFile) (status : Errors) :
    Stays (ConnGone gone) (do
      if status = .ok then
        record (.copied f)
        modify fun r =>
          let c := (copyFile (env.copy f) (r.machine.original f) (r.machine.backup f)).2
          { r with machine := { r.machine with backup := Function.update r.machine.backup f c } }
      return status : ClientM σ Errors) := by
  by_cases hok : status = .ok
  · simp only [if_pos hok]
    unfold record
    refine Stays.bind (Stays.modify fun _ h => h) fun _ => ?_
    exact Stays.bind (Stays.modify fun _ h => h) fun _ => Stays.pure _
  · simp only [if_neg hok]
    exact Stays.pure _

theorem sendAndBackup_stays (f : UploadFile) : Stays (ConnGone gone) (sendAndBackup P env f) :=
  Stays.bind (ssdsSendFile_stays hk f) (backup_stays f)

theorem sendFirst_stays (f : UploadFile) : Stays (ConnGone gone) (sendFirst P env f) :=
  Stays.bind (sendAndBackup_stays hk f) fun _ => Stays.pure _

omit hk in
theorem ask_stays : Stays (ConnGone gone) (ask : ClientM σ Answer) := by
  unfold ask lift
  refine Stays.get_bind fun s hs => ?_
  refine Stays.bind (Stays.mk _) (fun _ => ?_) s hs
  exact Stays.bind (Stays.modify fun _ h => h) fun _ => Stays.pure _

/-- What follows the answer to the question. -/
theorem answered_stays (f : UploadFile) (ans : Answer) :
    Stays (ConnGone gone) (do
      if ans = .no then return some .ok
      else
        let status ← sendAndBackup P env f
        return if status = .ok then none else some status : ClientM σ (Option Errors)) := by
  by_cases hans : ans = .no
  · simp only [if_pos hans]
    exact Stays.pure _
  · simp only [if_neg hans]
    exact sendFirst_stays hk f

theorem sendChanged_stays (f : UploadFile) : Stays (ConnGone gone) (sendChanged P env f) := by
  unfold sendChanged
  refine Stays.get_bind fun s hs => ?_
  by_cases hc : compareFiles (s.machine.original f) (s.machine.backup f) = .ok
  · simp only [if_pos hc]
    exact hs
  · simp only [if_neg hc]
    exact Stays.bind ask_stays (answered_stays hk f) s hs

/-- A request once it is written: the answer. -/
theorem answer_stays :
    Stays (ConnGone gone) (do
      let (fresh, d) ← receive P env
      let a ← lift (ssdsAnswerProcess env.lr env.rpm (← get).stdin fresh d)
      modify fun r => { r with stdin := a.stdin, answer := some a }
      return a.rc : ClientM σ ℤ) := by
  unfold lift
  refine Stays.bind (receive_stays hk) fun _ => Stays.get_bind fun s hs => ?_
  refine Stays.bind (Stays.mk _) (fun _ => ?_) s hs
  exact Stays.bind (Stays.modify fun _ h => h) fun _ => Stays.pure _

/-- The same, from the acknowledgement on. -/
theorem checked_stays (p : SsdsJsonRead × Delivery) :
    Stays (ConnGone gone) (do
      let _ ← lift (ssdsCheckRepo p.1 p.2)
      let (fresh, d) ← receive P env
      let a ← lift (ssdsAnswerProcess env.lr env.rpm (← get).stdin fresh d)
      modify fun r => { r with stdin := a.stdin, answer := some a }
      return a.rc : ClientM σ ℤ) :=
  Stays.bind (Stays.mk _) fun _ => answer_stays hk

theorem sent_stays (status : Errors) :
    Stays (ConnGone gone) (do
      if status ≠ .ok then return status.num
      else
        let (fresh, d) ← receive P env
        let _ ← lift (ssdsCheckRepo fresh d)
        let (fresh, d) ← receive P env
        let a ← lift (ssdsAnswerProcess env.lr env.rpm (← get).stdin fresh d)
        modify fun r => { r with stdin := a.stdin, answer := some a }
        return a.rc : ClientM σ ℤ) := by
  by_cases hok : status = .ok
  · simp only [hok, ne_eq, not_true_eq_false, if_false]
    exact Stays.bind (receive_stays hk) (checked_stays hk)
  · simp only [ne_eq, hok, not_false_eq_true, if_true]
    exact Stays.pure _

theorem requestCommand_stays (action : Code) : Stays (ConnGone gone) (requestCommand P env action) := by
  unfold requestCommand
  refine Stays.bind ?_ (sent_stays hk)
  unfold ssdsSendRepo lift record
  cases env.repos with
  | none => exact Stays.pure _
  | some repos =>
    refine Stays.bind (Stays.mk _) fun json => ?_
    refine Stays.bind (Stays.modify fun _ h => h) fun _ => ?_
    exact Stays.bind (Stays.modify fun _ h => hk.write _ h) fun _ => Stays.pure _

end

/-! ## Connections that answer alike -/

/-- Both connections answer a receive with the same, or the first is gone. -/
def Answered (P : Peer σ) (Q : Peer τ) (gone : σ → Prop) (after halted : σ → τ → Prop) (b : σ)
    (l : τ) : Prop :=
  gone (P.recv b).2 ∨
    (∃ d b' l', P.recv b = (.ok d, b') ∧ Q.recv l = (.ok d, l') ∧ after b' l') ∨
    ∃ e b' l', P.recv b = (.error e, b') ∧ Q.recv l = (.error e, l') ∧ halted b' l'

/-- **Two connections that answer alike**: where the client may write (`idle`), the next receive
after an upload or a request answers the same on both, and so does every receive where they are
tied. The first may be gone, and then stays so. -/
structure Simulates (P : Peer σ) (Q : Peer τ) (gone : σ → Prop) (idle tied halted : σ → τ → Prop) :
    Prop where
  keeping : P.Keeping gone
  of_idle : ∀ {b l}, idle b l → tied b l
  of_tied : ∀ {b l}, tied b l → halted b l
  upload : ∀ {b l} (f : UploadFile) (file : List Byte), idle b l → file.length < 2 ^ 31 →
    Answered P Q gone idle halted (writeFile P f file b) (writeFile Q f file l)
  request : ∀ {b l op m}, idle b l → op ∈ getCodes → replyCode m = .ok op.num →
    Answered P Q gone tied halted (P.write m b) (Q.write m l)
  again : ∀ {b l}, tied b l → Answered P Q gone tied halted b l

/-! ## The parts of a run -/

/-- A run, moved to another connection. -/
def ClientRun.over (r : ClientRun σ) (l : τ) : ClientRun τ :=
  ⟨l, r.machine, r.stdin, r.received, r.trace, r.answer⟩

/-- The files of a machine are shorter than 2^31 bytes. -/
def Machine.Short (m : Machine) : Prop :=
  ∀ f file, m.original f = some file → file.length < 2 ^ 31

/-- Runs that differ in their connections only, and these are related. -/
def Paired (R : σ → τ → Prop) (s : ClientRun σ) (t : ClientRun τ) : Prop :=
  ∃ l, t = s.over l ∧ R s.conn l ∧ s.machine.Short

theorem Paired.mono {R R' : σ → τ → Prop} (hR : ∀ b l, R b l → R' b l) {s : ClientRun σ}
    {t : ClientRun τ} (h : Paired R s t) : Paired R' s t := by
  obtain ⟨l, ht, hl, hs⟩ := h
  exact ⟨l, ht, hR _ _ hl, hs⟩

/-- A change that leaves the connection and the files to send alone. -/
theorem Paired.change {R : σ → τ → Prop} {s s' : ClientRun σ} (h : R s.conn l)
    (hs : s.machine.Short) (hconn : s'.conn = s.conn)
    (horiginal : s'.machine.original = s.machine.original) : Paired R s' (s'.over l) := by
  refine ⟨l, rfl, ?_, ?_⟩
  · rw [hconn]
    exact h
  · intro f file hf
    rw [horiginal] at hf
    exact hs f file hf

variable {s : ClientRun σ}

theorem receive_coupled {after : σ → τ → Prop} (h : Answered P Q gone after halted s.conn l)
    (hs : s.machine.Short) :
    Coupled (ConnGone gone) (receive P env) s (receive Q env) (s.over l) (fun _ => Paired after)
      (Paired halted) := by
  unfold receive
  refine Coupled.get_bind ?_
  have hconn : (s.over l).conn = l := rfl
  rw [hconn]
  rcases h with hgone | ⟨d, b', l', hb, hl, ha⟩ | ⟨e, b', l', hb, hl, ha⟩
  · left
    cases hb : P.recv s.conn with
    | mk d b' =>
      rw [hb] at hgone
      cases d <;> exact hgone
  · rw [hb, hl]
    refine Coupled.set_bind ?_
    unfold lift
    refine Coupled.mk_bind ?_ ?_
    · rintro d' -
      exact Coupled.pure ⟨l', rfl, ha, hs⟩
    · intro e he
      cases he
  · rw [hb, hl]
    refine Coupled.set_bind ?_
    unfold lift
    refine Coupled.mk_bind ?_ ?_
    · intro d' hd
      cases hd
    · rintro e' -
      exact ⟨l', rfl, ha, hs⟩

theorem ssdsSendFile_coupled (h : Simulates P Q gone idle tied halted) (f : UploadFile)
    (hi : idle s.conn l) (hs : s.machine.Short) :
    Coupled (ConnGone gone) (ssdsSendFile P env f) s (ssdsSendFile Q env f) (s.over l) (fun _ => Paired idle)
      (Paired halted) := by
  unfold ssdsSendFile
  refine Coupled.get_bind ?_
  have hsame : (s.over l).machine.original f = s.machine.original f := rfl
  rw [hsame]
  cases ho : s.machine.original f with
  | none => exact Coupled.pure ⟨l, rfl, hi, hs⟩
  | some file =>
    unfold record
    refine Coupled.modify_bind (Coupled.modify_bind ?_)
    -- both write, and receive the same
    have hanswered := h.upload f file hi (hs f file ho)
    have hrecv : ∀ {b₁ l₁}, Answered P Q gone idle halted b₁ l₁ →
        Coupled (ConnGone gone) (receive P env)
          { s with conn := b₁, trace := s.trace ++ [.upload f] } (receive Q env)
          { s.over l with conn := l₁, trace := s.trace ++ [.upload f] }
          (fun _ => Paired idle) (Paired halted) :=
      fun {b₁ l₁} ha =>
        receive_coupled (s := { s with conn := b₁, trace := s.trace ++ [.upload f] }) ha hs
    refine Coupled.bind (hrecv hanswered) (acknowledged_stays f) ?_
    rintro ⟨fresh, d⟩ s' t' ⟨l', rfl, hi', hs'⟩
    unfold lift
    refine Coupled.mk_bind ?_ ?_
    · rintro status -
      by_cases hok : status = .ok
      · simp only [if_pos hok]
        exact Coupled.modify_bind (Coupled.pure (Paired.change hi' hs' rfl rfl))
      · simp only [if_neg hok]
        exact Coupled.pure ⟨l', rfl, hi', hs'⟩
    · rintro e -
      exact ⟨l', rfl, h.of_tied (h.of_idle hi'), hs'⟩

theorem sendAndBackup_coupled (h : Simulates P Q gone idle tied halted) (f : UploadFile)
    (hi : idle s.conn l) (hs : s.machine.Short) :
    Coupled (ConnGone gone) (sendAndBackup P env f) s (sendAndBackup Q env f) (s.over l) (fun _ => Paired idle)
      (Paired halted) := by
  unfold sendAndBackup
  refine Coupled.bind (ssdsSendFile_coupled h f hi hs) (backup_stays f) ?_
  rintro status s' t' ⟨l', rfl, hi', hs'⟩
  by_cases hok : status = .ok
  · simp only [if_pos hok]
    unfold record
    refine Coupled.modify_bind (Coupled.modify_bind (Coupled.pure ?_))
    exact Paired.change hi' hs' rfl rfl
  · simp only [if_neg hok]
    exact Coupled.pure ⟨l', rfl, hi', hs'⟩

theorem sendFirst_coupled (h : Simulates P Q gone idle tied halted) (f : UploadFile)
    (hi : idle s.conn l) (hs : s.machine.Short) :
    Coupled (ConnGone gone) (sendFirst P env f) s (sendFirst Q env f) (s.over l) (fun _ => Paired idle)
      (Paired halted) := by
  unfold sendFirst
  refine Coupled.bind (sendAndBackup_coupled h f hi hs) (fun _ => Stays.pure _) ?_
  intro status s' t' hpaired
  exact Coupled.pure hpaired

/-- A question leaves the connection alone. -/
theorem ask_coupled {R H : σ → τ → Prop} (hR : R s.conn l) (hH : H s.conn l)
    (hs : s.machine.Short) :
    Coupled (ConnGone gone) (ask : ClientM σ Answer) s (ask : ClientM τ Answer) (s.over l) (fun _ => Paired R)
      (Paired H) := by
  unfold ask
  refine Coupled.get_bind ?_
  unfold lift
  refine Coupled.mk_bind ?_ fun _ _ => ⟨l, rfl, hH, hs⟩
  rintro ⟨ans, stdin⟩ -
  exact Coupled.modify_bind (Coupled.pure (Paired.change hR hs rfl rfl))

theorem sendChanged_coupled (h : Simulates P Q gone idle tied halted) (f : UploadFile)
    (hi : idle s.conn l) (hs : s.machine.Short) :
    Coupled (ConnGone gone) (sendChanged P env f) s (sendChanged Q env f) (s.over l) (fun _ => Paired idle)
      (Paired halted) := by
  unfold sendChanged
  refine Coupled.get_bind ?_
  have hmachine : (s.over l).machine = s.machine := rfl
  rw [hmachine]
  by_cases hc : compareFiles (s.machine.original f) (s.machine.backup f) = .ok
  · simp only [if_pos hc]
    exact Coupled.pure ⟨l, rfl, hi, hs⟩
  · simp only [if_neg hc]
    refine Coupled.bind (ask_coupled hi (h.of_tied (h.of_idle hi)) hs)
      (answered_stays h.keeping f) ?_
    rintro ans s' t' ⟨l', rfl, hi', hs'⟩
    by_cases hans : ans = .no
    · simp only [if_pos hans]
      exact Coupled.pure ⟨l', rfl, hi', hs'⟩
    · simp only [if_neg hans]
      exact sendFirst_coupled h f hi' hs'

theorem checkId_coupled (h : Simulates P Q gone idle tied halted) (hi : idle s.conn l)
    (hs : s.machine.Short) :
    Coupled (ConnGone gone) (checkId P env) s (checkId Q env) (s.over l) (fun _ => Paired idle)
      (Paired halted) := by
  unfold checkId
  refine Coupled.get_bind ?_
  have hid : (s.over l).machine.id = s.machine.id := rfl
  rw [hid]
  -- both ways to deal with a file agree
  have hsend : ∀ (f : UploadFile) (r : ClientRun σ) (l : τ), idle r.conn l → r.machine.Short →
      Coupled (ConnGone gone) ((if s.machine.id = none then sendFirst P env else sendChanged P env) f) r
        ((if s.machine.id = none then sendFirst Q env else sendChanged Q env) f) (r.over l)
        (fun _ => Paired idle) (Paired halted) := by
    intro f r l hi hs
    by_cases hnone : s.machine.id = none
    · simp only [if_pos hnone]
      exact sendFirst_coupled h f hi hs
    · simp only [if_neg hnone]
      exact sendChanged_coupled h f hi hs
  refine Coupled.bind (hsend .solv s l hi hs) (fun o => ?_) ?_
  · cases o with
    | some status => exact Stays.pure _
    | none =>
      by_cases hnone : s.machine.id = none
      · simp only [if_pos hnone]
        exact sendFirst_stays h.keeping .yum
      · simp only [if_neg hnone]
        exact sendChanged_stays h.keeping .yum
  rintro o s' t' ⟨l', rfl, hi', hs'⟩
  cases o with
  | some status => exact Coupled.pure ⟨l', rfl, hi', hs'⟩
  | none => exact hsend .yum s' l' hi' hs'

/-- The writing of a request: nothing is written, or the next receive answers alike. -/
theorem ssdsSendRepo_coupled (h : Simulates P Q gone idle tied halted) {action : Code}
    (hop : action ∈ getCodes) (hi : idle s.conn l) (hs : s.machine.Short) :
    Coupled (ConnGone gone) (ssdsSendRepo P env action) s (ssdsSendRepo Q env action) (s.over l)
      (fun status s' t' => if status = .ok then
          ∃ l', t' = s'.over l' ∧ Answered P Q gone tied halted s'.conn l' ∧ s'.machine.Short
        else Paired tied s' t') (Paired halted) := by
  unfold ssdsSendRepo
  cases env.repos with
  | none => exact Coupled.pure ⟨l, rfl, h.of_idle hi, hs⟩
  | some repos =>
    unfold lift
    refine Coupled.mk_bind ?_ fun _ _ => ⟨l, rfl, h.of_tied (h.of_idle hi), hs⟩
    intro json hjson
    unfold record
    refine Coupled.modify_bind (Coupled.modify_bind (Coupled.pure ?_))
    have hanswered := h.request hi hop (repoMessage_code hjson)
    rw [if_pos rfl]
    exact ⟨_, rfl, hanswered, hs⟩

/-- **A request** on both connections. -/
theorem requestCommand_coupled (h : Simulates P Q gone idle tied halted) {action : Code}
    (hop : action ∈ getCodes) (hi : idle s.conn l) (hs : s.machine.Short) :
    Coupled (ConnGone gone) (requestCommand P env action) s (requestCommand Q env action) (s.over l)
      (fun _ => Paired tied) (Paired halted) := by
  unfold requestCommand
  refine Coupled.bind (ssdsSendRepo_coupled h hop hi hs) (sent_stays h.keeping) ?_
  intro status s₁ t₁ hsent
  by_cases hok : status = .ok
  · rw [if_pos hok] at hsent
    obtain ⟨l₁, rfl, hanswered, hs₁⟩ := hsent
    simp only [hok, ne_eq, not_true_eq_false, if_false]
    -- the acknowledgement
    refine Coupled.bind (receive_coupled hanswered hs₁) (checked_stays h.keeping) ?_
    rintro ⟨fresh, d⟩ s₂ t₂ ⟨l₂, rfl, htied₂, hs₂⟩
    unfold lift
    refine Coupled.mk_bind ?_ fun _ _ => ⟨l₂, rfl, h.of_tied htied₂, hs₂⟩
    rintro _ -
    -- the answer
    refine Coupled.bind (receive_coupled (h.again htied₂) hs₂) (fun _ => ?_) ?_
    · refine Stays.get_bind fun s hs => ?_
      refine Stays.bind (Stays.mk _) (fun _ => ?_) s hs
      exact Stays.bind (Stays.modify fun _ h => h) fun _ => Stays.pure _
    rintro ⟨fresh', d'⟩ s₃ t₃ ⟨l₃, rfl, htied₃, hs₃⟩
    refine Coupled.get_bind ?_
    refine Coupled.mk_bind ?_ fun _ _ => ⟨l₃, rfl, h.of_tied htied₃, hs₃⟩
    rintro a -
    exact Coupled.modify_bind (Coupled.pure (Paired.change htied₃ hs₃ rfl rfl))
  · rw [if_neg hok] at hsent
    simp only [ne_eq, hok, not_false_eq_true, if_true]
    exact Coupled.pure hsent

/-- What follows the check of the id. -/
theorem rest_stays (hk : P.Keeping gone) (o : Option Errors) :
    Stays (ConnGone gone) (match o with
      | some status => return status.num
      | none =>
        match env.effective.action with
        | none => return Errors.ok.num
        | some action => requestCommand P env action : ClientM σ ℤ) := by
  cases o with
  | some status => exact Stays.pure _
  | none =>
    cases env.effective.action with
    | none => exact Stays.pure _
    | some action => exact requestCommand_stays hk action

/-- **The runs on two connections that answer alike agree.** -/
theorem clientMain_coupled (h : Simulates P Q gone idle tied halted) (hi : idle s.conn l)
    (hs : s.machine.Short) :
    Coupled (ConnGone gone) (clientMain P env) s (clientMain Q env) (s.over l) (fun _ => Paired tied)
      (Paired halted) := by
  unfold clientMain
  refine Coupled.bind (checkId_coupled h hi hs) (rest_stays h.keeping) ?_
  rintro o s' t' ⟨l', rfl, hi', hs'⟩
  cases o with
  | some status => exact Coupled.pure ⟨l', rfl, h.of_idle hi', hs'⟩
  | none =>
    cases ha : env.effective.action with
    | none => exact Coupled.pure ⟨l', rfl, h.of_idle hi', hs'⟩
    | some action => exact requestCommand_coupled h (Command.action_mem ha) hi' hs'

end Rds
