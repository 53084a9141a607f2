import Rds.Lib.Invariant
import Rds.Spec.NetworkSecurity

/-!
# Sessions that outlive their connection

`ssds_read` and `ssds_write` open a session when there is none and never look at the descriptor
again. Freeing leaves the pointers as they are.

* `initialize_spec`: what an initialization leaves behind, by what the library answered.
* `step_consistent_iff`: when one call keeps the law.
* `secure_consistent_iff`: the runs on which the law holds.
-/

namespace Rds

namespace Security

open Invariant

variable {Fd β : Type}

/-! ## The law -/

/-- What the law asks of a call, by the calls before it: what it names is not freed, and a
transfer goes through a session that was made for its descriptor and whose handshake was
completed. -/
def TlsCall.Allowed (before : List (TlsCall Fd)) : TlsCall Fd → Prop
  | .newContext _ => True
  | .useContext c => .freeContext c ∉ before
  | .freeContext c => .freeContext c ∉ before
  | .newSession _ c => .freeContext c ∉ before
  | .setFd s _ => .freeSession s ∉ before
  | .handshake s _ => .freeSession s ∉ before
  | .getPeerCertificate s => .freeSession s ∉ before
  | .freeSession s => .freeSession s ∉ before
  | .transfer _ s fd => .freeSession s ∉ before ∧ .handshake s 1 ∈ before ∧ .setFd s fd ∈ before ∧
      ∀ fd', .setFd s fd' ∈ before → fd' = fd

/-- **The law**: every call is allowed where it was made. -/
def Consistent : List (TlsCall Fd) → Prop
  | [] => True
  | call :: before => call.Allowed before ∧ Consistent before

/-- The context is made and, on the server, the certificates are loaded. -/
def Library.ReachesSession (side : Side) (lib : Library) : Prop :=
  lib.setCipherList = 1 ∧
    (side = .server →
      0 < lib.useCertificateFile ∧ 0 < lib.usePrivateKeyFile ∧ lib.checkPrivateKey ≠ 0)

/-- What the code takes for a connection that was established. -/
def Library.Passes (side : Side) (lib : Library) : Prop :=
  lib.ReachesSession side ∧ lib.newSession = true ∧ lib.handshake ≠ -1 ∧ lib.peerCertificate = true

/-- **The condition on a read or a write.** In a connection, the descriptor is the one the
session was made for. Outside of one, the context can only fail while there never was a
session, and what is taken for a connection had its handshake completed. -/
def TransferOk (side : Side) (s : State Fd) (fd : Fd) (lib : Library) : Prop :=
  if s.sslConnected then ∃ k, s.ssl = some k ∧ .setFd k fd ∈ s.calls
  else lib.newContext = true →
    (¬ lib.ReachesSession side → s.ssl = none) ∧ (lib.Passes side → lib.handshake = 1)

/-- **The condition on a call.** A reset ends a connection, or there never was anything to
free. -/
def CallOk (side : Side) (s : State Fd) (call : Call Fd) : Prop :=
  s.crashed = true ∨ match call with
    | .read fd lib _ => TransferOk side s fd lib
    | .write fd lib _ => TransferOk side s fd lib
    | .reset => s.sslConnected = true ∨ s.ssl = none ∧ s.ctx = none

/-! ## What an initialization does -/

/-- A call of an initialization that starts in `s`: it names what is made there. -/
def TlsCall.Opens (s : State Fd) (fd : Fd) : TlsCall Fd → Prop
  | .newContext c => c = s.contexts
  | .useContext c => c = s.contexts
  | .newSession k c => k = s.sessions ∧ c = s.contexts
  | .setFd k fd' => k = s.sessions ∧ fd' = fd
  | .handshake k _ => k = s.sessions
  | .getPeerCertificate k => k = s.sessions
  | _ => False

variable {s : State Fd} {fd : Fd} {side : Side} {lib : Library} {call : TlsCall Fd} {c k : ℕ}

/-- The calls that make a context. -/
def contextCalls (c n : ℕ) : List (TlsCall Fd) :=
  List.replicate n (.useContext c) ++ [.useContext c, .newContext c]

/-- The calls that make a session, the context's included. -/
def sessionCalls (s : State Fd) (fd : Fd) (n : ℕ) : List (TlsCall Fd) :=
  .setFd s.sessions fd :: .newSession s.sessions s.contexts :: .useContext s.contexts ::
    contextCalls s.contexts n

theorem contextCalls_append (c n : ℕ) (l : List (TlsCall Fd)) :
    contextCalls c n ++ l =
      List.replicate n (.useContext c) ++ .useContext c :: .newContext c :: l := by
  unfold contextCalls
  rw [List.append_assoc]
  rfl

theorem opens_contextCalls {n : ℕ} : ∀ call ∈ contextCalls s.contexts n, call.Opens s fd := by
  intro call hcall
  rcases List.mem_append.1 hcall with h | h
  · rw [List.eq_of_mem_replicate h]
    rfl
  · simp only [List.mem_cons, List.not_mem_nil, or_false] at h
    rcases h with rfl | rfl
    · rfl
    · rfl

theorem opens_sessionCalls {n : ℕ} : ∀ call ∈ sessionCalls s fd n, call.Opens s fd :=
  List.forall_mem_cons.2 ⟨⟨rfl, rfl⟩, List.forall_mem_cons.2 ⟨⟨rfl, rfl⟩,
    List.forall_mem_cons.2 ⟨rfl, opens_contextCalls⟩⟩⟩

theorem tell_bind {f : PUnit → SecureM Fd β} {post : β → State Fd → Prop} {halt : State Fd → Prop}
    (h : Triple (· = { s with calls := call :: s.calls }) (f ⟨⟩) post halt) :
    Triple (· = s) (tell call >>= f) post halt :=
  Triple.modify_bind h

/-- What an initialization leaves behind: it returns -1 before it made a session or with a
session it could not establish, or it returns 0. -/
inductive Initialized (side : Side) (lib : Library) (fd : Fd) (s : State Fd) : ℤ → State Fd → Prop
  | noSession (ctx : Option ℕ) (n : ℕ) (hmade : lib.newContext = true)
      (hlib : ¬ lib.ReachesSession side) (hctx : ctx = none ∨ ctx = some s.contexts) :
      Initialized side lib fd s (-1)
        { s with ctx := ctx, contexts := s.contexts + 1
                 calls := contextCalls s.contexts n ++ s.calls }
  | notPassed (news : List (TlsCall Fd)) (hmade : lib.newContext = true)
      (hlib : lib.ReachesSession side) (hpass : ¬ lib.Passes side)
      (hnews : ∀ call ∈ news, call.Opens s fd) :
      Initialized side lib fd s (-1)
        { s with ctx := some s.contexts, contexts := s.contexts + 1, ssl := some s.sessions
                 sessions := s.sessions + 1, calls := news ++ s.calls }
  | passed (news : List (TlsCall Fd)) (hmade : lib.newContext = true) (hpass : lib.Passes side)
      (hnews : ∀ call ∈ news, call.Opens s fd) (hfd : .setFd s.sessions fd ∈ news)
      (hshake : ∀ ret, .handshake s.sessions ret ∈ news ↔ ret = lib.handshake) :
      Initialized side lib fd s 0
        { s with ctx := some s.contexts, contexts := s.contexts + 1, ssl := some s.sessions
                 sessions := s.sessions + 1, calls := news ++ s.calls }

/-- What an initialization leaves behind that read through a null pointer. -/
structure Crashed (side : Side) (lib : Library) (fd : Fd) (s s' : State Fd) : Prop where
  library : lib.newContext = true → lib.ReachesSession side ∧ ¬ lib.Passes side
  news : ∃ news, (∀ call ∈ news, call.Opens s fd) ∧ s'.calls = news ++ s.calls

/-- **The context**: one is made, in the global and, if its ciphers can be set, returned. -/
theorem initCTX_spec (lib : Library) (s : State Fd) :
    Triple (· = s) (initCTX lib)
      (fun ctx s' => lib.newContext = true ∧
        ctx = (if lib.setCipherList = 1 then some s.contexts else none) ∧
        s' = { s with contexts := s.contexts + 1, ctx := some s.contexts
                      calls := .useContext s.contexts :: .newContext s.contexts :: s.calls })
      (fun s' => lib.newContext = false ∧ s'.calls = s.calls) := by
  unfold initCTX
  apply Triple.get_bind
  by_cases hnew : lib.newContext = true
  · rw [if_pos hnew]
    simp only
    apply Triple.set_bind
    apply tell_bind
    apply Triple.get_bind
    simp only [nonNull, pure_bind]
    apply tell_bind
    by_cases hset : lib.setCipherList = 1
    · simp only [hset, ne_eq, not_true_eq_false, if_false, if_true]
      exact Triple.pure ⟨hnew, rfl, rfl⟩
    · simp only [hset, ne_eq, not_false_eq_true, if_false, if_true]
      exact Triple.pure ⟨hnew, rfl, rfl⟩
  · rw [if_neg hnew]
    apply Triple.set_bind
    apply Triple.get_bind
    rintro t rfl
    exact ⟨Bool.eq_false_iff.2 hnew, rfl⟩

theorem loadCertificates_spec (lib : Library) (c : ℕ) (s : State Fd) :
    Triple (· = s) (loadCertificates lib c)
      (fun r s' => (r = 0 ∧ 0 < lib.useCertificateFile ∧ 0 < lib.usePrivateKeyFile ∧
            lib.checkPrivateKey ≠ 0 ∨
          r = -1 ∧ ¬ (0 < lib.useCertificateFile ∧ 0 < lib.usePrivateKeyFile ∧
            lib.checkPrivateKey ≠ 0)) ∧
        ∃ n, s' = { s with calls := List.replicate n (.useContext c) ++ s.calls })
      (fun _ => False) := by
  unfold loadCertificates
  apply tell_bind
  by_cases hcert : lib.useCertificateFile ≤ 0
  · rw [if_pos hcert]
    refine Triple.pure ⟨Or.inr ⟨rfl, by omega⟩, 1, rfl⟩
  rw [if_neg hcert]
  apply tell_bind
  by_cases hkey : lib.usePrivateKeyFile ≤ 0
  · rw [if_pos hkey]
    exact Triple.pure ⟨Or.inr ⟨rfl, by omega⟩, 2, rfl⟩
  rw [if_neg hkey]
  apply tell_bind
  by_cases hcheck : lib.checkPrivateKey = 0
  · rw [if_pos hcheck]
    exact Triple.pure ⟨Or.inr ⟨rfl, by omega⟩, 3, rfl⟩
  rw [if_neg hcheck]
  apply tell_bind
  exact Triple.pure ⟨Or.inl ⟨rfl, by omega, by omega, hcheck⟩, 4, rfl⟩

theorem showCerts_spec (lib : Library) (k : ℕ) (s : State Fd) :
    Triple (· = s) (showCerts lib k)
      (fun r s' => (r = 0 ∧ lib.peerCertificate = true ∨ r = -1 ∧ ¬ lib.peerCertificate = true) ∧
        s' = { s with calls := .getPeerCertificate k :: s.calls })
      (fun _ => False) := by
  unfold showCerts
  apply tell_bind
  by_cases hpeer : lib.peerCertificate = true
  · rw [if_pos hpeer]
    exact Triple.pure ⟨Or.inl ⟨rfl, hpeer⟩, rfl⟩
  · rw [if_neg hpeer]
    exact Triple.pure ⟨Or.inr ⟨rfl, hpeer⟩, rfl⟩

/-- **The session**: one is made in the context, for the descriptor. -/
theorem openSession_spec (lib : Library) (c : ℕ) (fd : Fd) (s : State Fd) :
    Triple (· = s) (openSession lib c fd)
      (fun k s' => k = s.sessions ∧ lib.newSession = true ∧
        s' = { s with sessions := s.sessions + 1, ssl := some s.sessions
                      calls := .setFd s.sessions fd :: .newSession s.sessions c ::
                        .useContext c :: s.calls })
      (fun s' => lib.newSession = false ∧ s'.calls = .useContext c :: s.calls) := by
  unfold openSession
  apply tell_bind
  apply Triple.get_bind
  by_cases hnew : lib.newSession = true
  · rw [if_pos hnew]
    simp only
    apply Triple.set_bind
    apply tell_bind
    apply Triple.get_bind
    simp only [nonNull, pure_bind]
    apply tell_bind
    exact Triple.pure ⟨rfl, hnew, rfl⟩
  · rw [if_neg hnew]
    apply Triple.set_bind
    apply Triple.get_bind
    rintro t rfl
    exact ⟨Bool.eq_false_iff.2 hnew, rfl⟩

/-- On the server the certificates are loaded between context and session. -/
theorem certificates_spec (side : Side) (lib : Library) (c : ℕ) (s : State Fd)
    {f : SecureM Fd ℤ} {g : SecureM Fd ℤ} {post : ℤ → State Fd → Prop} {halt : State Fd → Prop}
    (hset : lib.setCipherList = 1)
    (hfail : ∀ n, ¬ lib.ReachesSession side →
      Triple (· = { s with calls := List.replicate n (.useContext c) ++ s.calls }) f post halt)
    (hload : ∀ n, lib.ReachesSession side →
      Triple (· = { s with calls := List.replicate n (.useContext c) ++ s.calls }) g post halt) :
    Triple (· = s) (if side = .server then
        loadCertificates lib c >>= fun r => if r = -1 then f else g
      else g) post halt := by
  by_cases hside : side = .server
  · rw [if_pos hside]
    apply Triple.bind ((loadCertificates_spec lib c s).weaken (fun _ _ h => h)
      fun _ h => h.elim)
    rintro r t ⟨⟨rfl, hcert⟩ | ⟨rfl, hcert⟩, n, rfl⟩
    · rw [if_neg (by decide)]
      exact hload n ⟨hset, fun _ => hcert⟩
    · rw [if_pos rfl]
      exact hfail n fun h => hcert (h.2 hside)
  · rw [if_neg hside]
    exact hload 0 ⟨hset, fun h => (hside h).elim⟩

/-- **What one initialization does**, by what the library answers. -/
theorem initialize_spec (side : Side) (lib : Library) (fd : Fd) (s : State Fd) :
    Triple (· = s) (initializeSecureConnection side lib fd) (Initialized side lib fd s)
      (Crashed side lib fd s) := by
  unfold initializeSecureConnection
  have hnone : ∀ t : State Fd, lib.newContext = false ∧ t.calls = s.calls →
      Crashed side lib fd s t := by
    intro t ⟨hnew, hcalls⟩
    exact ⟨fun h => absurd h (by rw [hnew]; decide), [], by simp, hcalls⟩
  apply Triple.bind ((initCTX_spec lib s).weaken (fun _ _ h => h) hnone)
  rintro ctx t ⟨hmade, rfl, rfl⟩
  apply Triple.modify_bind
  by_cases hset : lib.setCipherList = 1
  swap
  · rw [if_neg hset]
    exact Triple.pure (Initialized.noSession none 0 hmade (fun h => hset h.1) (Or.inl rfl))
  rw [if_pos hset]
  refine certificates_spec side lib s.contexts _ hset ?_ ?_
  · -- the context was made, and the certificates were not loaded
    intro n hlib
    rw [← contextCalls_append]
    exact Triple.pure (Initialized.noSession (some s.contexts) n hmade hlib (Or.inr rfl))
  intro n hlib
  rw [← contextCalls_append]
  have hnull : ∀ t : State Fd, lib.newSession = false ∧
      t.calls = .useContext s.contexts :: (contextCalls s.contexts n ++ s.calls) →
      Crashed side lib fd s t := by
    intro t ⟨hnew, hcalls⟩
    refine ⟨fun _ => ⟨hlib, fun hpass => ?_⟩, .useContext s.contexts :: contextCalls s.contexts n,
      List.forall_mem_cons.2 ⟨rfl, opens_contextCalls⟩, hcalls⟩
    exact absurd hpass.2.1 (by rw [hnew]; decide)
  apply Triple.bind ((openSession_spec lib s.contexts fd _).weaken (fun _ _ h => h) hnull)
  rintro k t ⟨rfl, hnew, rfl⟩
  apply tell_bind
  have hshake : ∀ call ∈ TlsCall.handshake s.sessions lib.handshake ::
      sessionCalls s fd n, call.Opens s fd :=
    List.forall_mem_cons.2 ⟨rfl, opens_sessionCalls⟩
  by_cases hret : lib.handshake = -1
  · rw [if_pos hret]
    exact Triple.pure (Initialized.notPassed _ hmade hlib (fun h => h.2.2.1 hret) hshake)
  rw [if_neg hret]
  have hcert : ∀ call ∈ TlsCall.getPeerCertificate s.sessions ::
      TlsCall.handshake s.sessions lib.handshake :: sessionCalls s fd n, call.Opens s fd :=
    List.forall_mem_cons.2 ⟨rfl, hshake⟩
  apply Triple.bind ((showCerts_spec lib s.sessions _).weaken (fun _ _ h => h) fun _ h => h.elim)
  rintro r t ⟨⟨rfl, hpeer⟩ | ⟨rfl, hpeer⟩, rfl⟩
  · rw [if_neg (by decide)]
    refine Triple.pure (Initialized.passed _ hmade ⟨hlib, hnew, hret, hpeer⟩ hcert ?_ ?_)
    · simp [sessionCalls]
    · simp [sessionCalls, contextCalls]
  · rw [if_pos rfl]
    exact Triple.pure (Initialized.notPassed _ hmade hlib (fun h => hpeer h.2.2.2) hcert)

/-- What is freed: the session first, then its context. -/
def frees (s : State Fd) : List (TlsCall Fd) :=
  (s.ctx.map .freeContext).toList ++ (s.ssl.map .freeSession).toList

theorem freeGlobals_spec (s : State Fd) :
    Triple (· = s) freeGlobals (fun _ s' => s' = { s with calls := frees s ++ s.calls })
      (fun _ => False) := by
  obtain ⟨sslConnected, ctx, ssl, contexts, sessions, calls, crashed⟩ := s
  rintro t rfl
  cases ssl with
  | none =>
    cases ctx with
    | none => rfl
    | some c => rfl
  | some k =>
    cases ctx with
    | none => rfl
    | some c => rfl

/-! ## The invariant -/

/-- What a call names was made. -/
def TlsCall.Below (contexts sessions : ℕ) : TlsCall Fd → Prop
  | .newContext c => c < contexts
  | .useContext c => c < contexts
  | .freeContext c => c < contexts
  | .newSession k c => k < sessions ∧ c < contexts
  | .setFd k _ => k < sessions
  | .handshake k _ => k < sessions
  | .getPeerCertificate k => k < sessions
  | .transfer _ k _ => k < sessions
  | .freeSession k => k < sessions

/-- **The globals and the objects**, at the end of a call: in a connection they point to a
session and a context that live, outside of one to freed ones or nowhere. -/
structure WellFormed (s : State Fd) : Prop where
  made : (∀ k ∈ s.ssl, k < s.sessions) ∧ ∀ c ∈ s.ctx, c < s.contexts
  numbered : ∀ call ∈ s.calls, call.Below s.contexts s.sessions
  descriptor : ∀ k fd fd', .setFd k fd ∈ s.calls → .setFd k fd' ∈ s.calls → fd = fd'
  connected : s.sslConnected = true → ∃ k c, s.ssl = some k ∧ s.ctx = some c ∧
    .freeSession k ∉ s.calls ∧ .freeContext c ∉ s.calls ∧ ∃ kind fd, .transfer kind k fd ∈ s.calls
  idle : s.sslConnected = false →
    (∀ k ∈ s.ssl, .freeSession k ∈ s.calls) ∧ ∀ c ∈ s.ctx, .freeContext c ∈ s.calls

theorem wellFormed_init : WellFormed ({} : State Fd) :=
  ⟨by simp, by simp, by simp, by simp, by simp⟩

variable {before news : List (TlsCall Fd)} {kind : Transfer} {res : ℤ}

/-- In a lawful run a session that was used had its handshake completed. -/
theorem Consistent.handshake_mem (hc : Consistent before) (h : .transfer kind k fd ∈ before) :
    .handshake k 1 ∈ before := by
  induction before with
  | nil => cases h
  | cons call before ih =>
    apply List.mem_cons_of_mem
    rcases List.mem_cons.1 h with rfl | h
    · exact hc.1.2.1
    · exact ih hc.2 h

theorem WellFormed.fresh_context (hw : WellFormed s) (hnews : ∀ call ∈ news, call.Opens s fd) :
    .freeContext s.contexts ∉ news ++ s.calls := by
  intro h
  rcases List.mem_append.1 h with h | h
  · exact hnews _ h
  · exact Nat.lt_irrefl _ (hw.numbered _ h)

theorem WellFormed.fresh_session (hw : WellFormed s) (hnews : ∀ call ∈ news, call.Opens s fd) :
    .freeSession s.sessions ∉ news ++ s.calls := by
  intro h
  rcases List.mem_append.1 h with h | h
  · exact hnews _ h
  · exact Nat.lt_irrefl _ (hw.numbered _ h)

/-- **An initialization keeps the law** until it ends. -/
theorem WellFormed.consistent_append (hw : WellFormed s) (hc : Consistent s.calls)
    (hnews : ∀ call ∈ news, call.Opens s fd) : Consistent (news ++ s.calls) := by
  induction news with
  | nil => exact hc
  | cons call news ih =>
    obtain ⟨hcall, hrest⟩ := List.forall_mem_cons.1 hnews
    refine ⟨?_, ih hrest⟩
    have hctx := hw.fresh_context hrest
    have hssl := hw.fresh_session hrest
    cases call with
    | newContext c => trivial
    | useContext c => exact hcall ▸ hctx
    | newSession k c => exact hcall.2 ▸ hctx
    | setFd k fd' => exact hcall.1 ▸ hssl
    | handshake k ret => exact hcall ▸ hssl
    | getPeerCertificate k => exact hcall ▸ hssl
    | freeContext c => exact hcall.elim
    | transfer kind k fd' => exact hcall.elim
    | freeSession k => exact hcall.elim

theorem TlsCall.Below.mono {m n m' n' : ℕ} (h : call.Below m n) (hm : m ≤ m') (hn : n ≤ n') :
    call.Below m' n' := by
  cases call <;> simp only [TlsCall.Below] at h ⊢ <;> omega

theorem TlsCall.Opens.below (h : call.Opens s fd) : call.Below (s.contexts + 1) (s.sessions + 1) := by
  cases call <;> simp only [TlsCall.Opens, TlsCall.Below] at h ⊢ <;> omega

/-- What an initialization made is numbered. -/
theorem WellFormed.numbered_append (hw : WellFormed s) (hnews : ∀ call ∈ news, call.Opens s fd) :
    ∀ call ∈ news ++ s.calls, call.Below (s.contexts + 1) (s.sessions + 1) := by
  intro call hcall
  rcases List.mem_append.1 hcall with h | h
  · exact (hnews call h).below
  · exact (hw.numbered call h).mono (Nat.le_succ _) (Nat.le_succ _)

theorem below_contextCalls {c n m : ℕ} :
    ∀ call ∈ (contextCalls c n : List (TlsCall Fd)), call.Below (c + 1) m := by
  intro call hcall
  rcases List.mem_append.1 hcall with h | h
  · rw [List.eq_of_mem_replicate h]
    exact Nat.lt_succ_self c
  · simp only [List.mem_cons, List.not_mem_nil, or_false] at h
    rcases h with rfl | rfl
    · exact Nat.lt_succ_self c
    · exact Nat.lt_succ_self c

/-- An initialization sets one descriptor. -/
theorem WellFormed.descriptor_append (hw : WellFormed s) (hnews : ∀ call ∈ news, call.Opens s fd)
    (k : ℕ) (fd₁ fd₂ : Fd) (h₁ : .setFd k fd₁ ∈ news ++ s.calls)
    (h₂ : .setFd k fd₂ ∈ news ++ s.calls) : fd₁ = fd₂ := by
  rcases List.mem_append.1 h₁ with h₁ | h₁
  · have hk₁ := hnews _ h₁
    rcases List.mem_append.1 h₂ with h₂ | h₂
    · rw [hk₁.2, (hnews _ h₂).2]
    · exact absurd (hw.numbered _ h₂) (by rw [hk₁.1]; exact Nat.lt_irrefl _)
  · rcases List.mem_append.1 h₂ with h₂ | h₂
    · have hk₂ := hnews _ h₂
      exact absurd (hw.numbered _ h₁) (by rw [hk₂.1]; exact Nat.lt_irrefl _)
    · exact hw.descriptor k fd₁ fd₂ h₁ h₂

variable {t : State Fd}

/-- **Freeing is lawful** where nothing is freed again. -/
theorem consistent_frees_iff (hc : Consistent t.calls) :
    Consistent (frees t ++ t.calls) ↔
      (∀ k ∈ t.ssl, .freeSession k ∉ t.calls) ∧ ∀ c ∈ t.ctx, .freeContext c ∉ t.calls := by
  unfold frees
  cases t.ssl <;> cases t.ctx <;> simp [Consistent, TlsCall.Allowed, hc, and_comm]

/-- Objects that were just made are numbered. -/
theorem made_next (m n : ℕ) : (∀ k ∈ some m, k < m + 1) ∧ ∀ c ∈ some n, c < n + 1 := by
  constructor
  · intro k hk
    obtain rfl := Option.some.inj hk
    exact Nat.lt_succ_self _
  · intro c hc
    obtain rfl := Option.some.inj hc
    exact Nat.lt_succ_self _

/-- After freeing the pointers point to freed objects. -/
theorem wellFormed_freed {b : Bool} (hb : b = false)
    (hmade : (∀ k ∈ t.ssl, k < t.sessions) ∧ ∀ c ∈ t.ctx, c < t.contexts)
    (hnumbered : ∀ call ∈ t.calls, call.Below t.contexts t.sessions)
    (hdescriptor : ∀ k fd fd', .setFd k fd ∈ t.calls → .setFd k fd' ∈ t.calls → fd = fd') :
    WellFormed { t with sslConnected := b, calls := frees t ++ t.calls } := by
  have hmem : ∀ call, call ∈ frees t ++ t.calls ↔
      (∃ c ∈ t.ctx, .freeContext c = call) ∨ (∃ k ∈ t.ssl, .freeSession k = call) ∨
        call ∈ t.calls := by
    intro call
    simp [frees]
  subst hb
  refine ⟨hmade, ?_, ?_, by simp, fun _ => ⟨?_, ?_⟩⟩
  · intro call hcall
    rcases (hmem call).1 hcall with ⟨c, hc, rfl⟩ | ⟨k, hk, rfl⟩ | h
    · exact hmade.2 c hc
    · exact hmade.1 k hk
    · exact hnumbered call h
  · intro k fd fd' h h'
    refine hdescriptor k fd fd' ?_ ?_
    · simpa using (hmem _).1 h
    · simpa using (hmem _).1 h'
  · intro k hk
    exact (hmem _).2 (Or.inr (Or.inl ⟨k, hk, rfl⟩))
  · intro c hc
    exact (hmem _).2 (Or.inl ⟨c, hc, rfl⟩)

/-! ## One call -/

/-- **A transfer in a connection** is lawful for the descriptor of the session. -/
theorem transfer_connected (hw : WellFormed s) (hc : Consistent s.calls)
    (hconn : s.sslConnected = true) :
    Triple (· = s) (transfer kind side lib fd res)
      (fun _ s' => WellFormed s' ∧
        (Consistent s'.calls ↔ ∃ k, s.ssl = some k ∧ .setFd k fd ∈ s.calls))
      (fun _ => False) := by
  obtain ⟨k, c, hssl, hctx, hk, hfree, kind', fd', hused⟩ := hw.connected hconn
  unfold transfer
  apply Triple.get_bind
  rw [if_neg (by rw [hconn]; decide)]
  apply Triple.get_bind
  simp only [hssl, nonNull, pure_bind]
  apply tell_bind
  refine Triple.pure ⟨⟨hw.made, ?_, ?_, ?_, ?_⟩, ?_⟩
  · refine List.forall_mem_cons.2 ⟨?_, hw.numbered⟩
    exact hw.made.1 k hssl
  · intro k fd₁ fd₂ h₁ h₂
    refine hw.descriptor k fd₁ fd₂ ?_ ?_
    · simpa using h₁
    · simpa using h₂
  · intro _
    refine ⟨k, c, hssl, hctx, ?_, ?_, kind, fd, List.mem_cons_self⟩
    · simpa using hk
    · simpa using hfree
  · intro hidle
    rw [hconn] at hidle
    cases hidle
  · constructor
    · intro h
      exact ⟨k, rfl, h.1.2.2.1⟩
    · rintro ⟨k', hk', hfd⟩
      obtain rfl := Option.some.inj hk'
      exact ⟨⟨hk, hc.handshake_mem hused, hfd, fun fd₂ h₂ => hw.descriptor k fd₂ fd h₂ hfd⟩, hc⟩

/-- What the condition asks of a call outside of a connection that finds a context. -/
def IdleOk (side : Side) (lib : Library) (s : State Fd) : Prop :=
  (¬ lib.ReachesSession side → s.ssl = none) ∧ (lib.Passes side → lib.handshake = 1)

/-- **No session was made**: what is freed is the old one, which was freed before, and the
context. -/
theorem WellFormed.noSession (fd : Fd) (hw : WellFormed s) (hc : Consistent s.calls)
    (hidle : s.sslConnected = false) {ctx : Option ℕ} {n : ℕ} (hlib : ¬ lib.ReachesSession side)
    (hctx : ctx = none ∨ ctx = some s.contexts) {t : State Fd}
    (ht : t = { s with ctx := ctx, contexts := s.contexts + 1
                       calls := contextCalls s.contexts n ++ s.calls }) :
    WellFormed { t with calls := frees t ++ t.calls } ∧
      (Consistent (frees t ++ t.calls) ↔ IdleOk side lib s) := by
  subst ht
  have hnews : ∀ call ∈ contextCalls s.contexts n, call.Opens s fd := opens_contextCalls
  have hfresh := hw.fresh_context hnews
  refine ⟨wellFormed_freed hidle ⟨?_, ?_⟩ ?_ (hw.descriptor_append hnews), ?_⟩
  · exact hw.made.1
  · intro c hctx'
    rcases hctx with rfl | rfl
    · cases hctx'
    · obtain rfl := Option.some.inj hctx'
      exact Nat.lt_succ_self _
  · intro call hcall
    rcases List.mem_append.1 hcall with h | h
    · exact below_contextCalls call h
    · exact (hw.numbered call h).mono (Nat.le_succ _) (Nat.le_refl _)
  · rw [consistent_frees_iff (hw.consistent_append hc hnews)]
    constructor
    · -- the old session was freed before
      intro h
      refine ⟨fun _ => ?_, fun hpass => (hlib hpass.1).elim⟩
      cases hssl : s.ssl with
      | none => rfl
      | some k => exact (h.1 k hssl (List.mem_append_right _ ((hw.idle hidle).1 k hssl))).elim
    · intro h
      refine ⟨fun k hk => ?_, fun c hc' => ?_⟩
      · rw [h.1 hlib] at hk
        cases hk
      · rcases hctx with rfl | rfl
        · cases hc'
        · obtain rfl := Option.some.inj hc'
          exact hfresh

/-- **A session was made and not established**: what is freed is new. -/
theorem WellFormed.notPassed (hw : WellFormed s) (hc : Consistent s.calls)
    (hidle : s.sslConnected = false) (hlib : lib.ReachesSession side)
    (hpass : ¬ lib.Passes side) (hnews : ∀ call ∈ news, call.Opens s fd) {t : State Fd}
    (ht : t = { s with ctx := some s.contexts, contexts := s.contexts + 1, ssl := some s.sessions
                       sessions := s.sessions + 1, calls := news ++ s.calls }) :
    WellFormed { t with calls := frees t ++ t.calls } ∧
      (Consistent (frees t ++ t.calls) ↔ IdleOk side lib s) := by
  subst ht
  refine ⟨wellFormed_freed hidle (made_next _ _) (hw.numbered_append hnews)
    (hw.descriptor_append hnews), ?_⟩
  rw [consistent_frees_iff (hw.consistent_append hc hnews)]
  refine ⟨fun _ => ⟨fun h => (h hlib).elim, fun h => (hpass h).elim⟩, fun _ => ⟨?_, ?_⟩⟩
  · intro k hk
    obtain rfl := Option.some.inj hk
    exact hw.fresh_session hnews
  · intro c hctx
    obtain rfl := Option.some.inj hctx
    exact hw.fresh_context hnews

/-- **A session was made and taken for established**: the transfer goes through it. -/
theorem WellFormed.passed (hw : WellFormed s) (hc : Consistent s.calls)
    (hpass : lib.Passes side) (hnews : ∀ call ∈ news, call.Opens s fd)
    (hfd : .setFd s.sessions fd ∈ news)
    (hshake : ∀ ret, .handshake s.sessions ret ∈ news ↔ ret = lib.handshake) {t : State Fd}
    (ht : t = { s with sslConnected := true, ctx := some s.contexts, contexts := s.contexts + 1
                       ssl := some s.sessions, sessions := s.sessions + 1
                       calls := .transfer kind s.sessions fd :: (news ++ s.calls) }) :
    WellFormed t ∧ (Consistent t.calls ↔ IdleOk side lib s) := by
  subst ht
  refine ⟨⟨made_next _ _, ?_, ?_, ?_, ?_⟩, ?_⟩
  · exact List.forall_mem_cons.2 ⟨Nat.lt_succ_self _, hw.numbered_append hnews⟩
  · intro k fd₁ fd₂ h₁ h₂
    refine hw.descriptor_append hnews k fd₁ fd₂ ?_ ?_
    · simpa using h₁
    · simpa using h₂
  · intro _
    refine ⟨s.sessions, s.contexts, rfl, rfl, ?_, ?_, kind, fd, List.mem_cons_self⟩
    · simpa using hw.fresh_session hnews
    · simpa using hw.fresh_context hnews
  · intro h
    cases h
  · have hfresh : .handshake s.sessions 1 ∉ s.calls :=
      fun h => Nat.lt_irrefl _ (hw.numbered _ h)
    constructor
    · intro h
      refine ⟨fun hno => (hno hpass.1).elim, fun _ => ?_⟩
      rcases List.mem_append.1 h.1.2.1 with hin | hin
      · exact ((hshake 1).1 hin).symm
      · exact (hfresh hin).elim
    · intro h
      have hmem : .setFd s.sessions fd ∈ news ++ s.calls := List.mem_append_left _ hfd
      refine ⟨⟨hw.fresh_session hnews, ?_, hmem, ?_⟩, hw.consistent_append hc hnews⟩
      · exact List.mem_append_left _ ((hshake 1).2 (h.2 hpass).symm)
      · intro fd₂ h₂
        exact hw.descriptor_append hnews _ _ _ h₂ hmem

/-- **A transfer outside of a connection** is lawful for one that was really established. -/
theorem transfer_idle (hw : WellFormed s) (hc : Consistent s.calls)
    (hidle : s.sslConnected = false) :
    Triple (· = s) (transfer kind side lib fd res)
      (fun _ s' => lib.newContext = true ∧ WellFormed s' ∧
        (Consistent s'.calls ↔ IdleOk side lib s))
      (fun s' => Consistent s'.calls ∧
        (lib.newContext = true → lib.ReachesSession side ∧ ¬ lib.Passes side)) := by
  unfold transfer
  apply Triple.get_bind
  rw [if_pos hidle]
  have hcrash : ∀ s', Crashed side lib fd s s' → Consistent s'.calls ∧
      (lib.newContext = true → lib.ReachesSession side ∧ ¬ lib.Passes side) := by
    intro s' h
    obtain ⟨news, hnews, hcalls⟩ := h.news
    rw [hcalls]
    exact ⟨hw.consistent_append hc hnews, h.library⟩
  apply Triple.bind ((initialize_spec side lib fd s).weaken (fun _ _ h => h) hcrash)
  intro r t ht
  cases ht with
  | noSession ctx n hmade hlib hctx =>
    rw [if_pos rfl]
    apply Triple.bind ((freeGlobals_spec _).weaken (fun _ _ h => h) fun _ h => h.elim)
    rintro _ t rfl
    exact Triple.pure ⟨hmade, hw.noSession fd hc hidle hlib hctx rfl⟩
  | notPassed news hmade hlib hpass hnews =>
    rw [if_pos rfl]
    apply Triple.bind ((freeGlobals_spec _).weaken (fun _ _ h => h) fun _ h => h.elim)
    rintro _ t rfl
    exact Triple.pure ⟨hmade, hw.notPassed hc hidle hlib hpass hnews rfl⟩
  | passed news hmade hpass hnews hfd hshake =>
    rw [if_neg (by decide)]
    apply Triple.modify_bind
    apply Triple.get_bind
    simp only [nonNull, pure_bind]
    apply tell_bind
    exact Triple.pure ⟨hmade, hw.passed hc hpass hnews hfd hshake rfl⟩

/-- **A reset** is lawful for what is not freed yet. -/
theorem reset_spec (hw : WellFormed s) (hc : Consistent s.calls) :
    Triple (· = s) cryptedConnectionReset
      (fun _ s' => WellFormed s' ∧
        (Consistent s'.calls ↔ s.sslConnected = true ∨ s.ssl = none ∧ s.ctx = none))
      (fun _ => False) := by
  unfold cryptedConnectionReset
  apply Triple.bind (freeGlobals_spec s)
  rintro _ t rfl
  rintro _ rfl
  refine ⟨wellFormed_freed rfl hw.made hw.numbered hw.descriptor, ?_⟩
  refine (consistent_frees_iff hc).trans ⟨?_, ?_⟩
  · intro ⟨hssl, hctx⟩
    rcases Bool.eq_false_or_eq_true s.sslConnected with h | h
    · exact Or.inl h
    · -- outside of a connection both were freed
      have hidle := hw.idle h
      refine Or.inr ⟨?_, ?_⟩
      · exact Option.eq_none_iff_forall_not_mem.2 fun k hk => hssl k hk (hidle.1 k hk)
      · exact Option.eq_none_iff_forall_not_mem.2 fun c hc => hctx c hc (hidle.2 c hc)
  · rintro (h | ⟨hssl, hctx⟩)
    · obtain ⟨k, c, hssl, hctx, hk, hfree, -⟩ := hw.connected h
      refine ⟨fun k' hk' => ?_, fun c' hc' => ?_⟩
      · rw [hssl] at hk'
        obtain rfl := Option.some.inj hk'
        exact hk
      · rw [hctx] at hc'
        obtain rfl := Option.some.inj hc'
        exact hfree
    · rw [hssl, hctx]
      exact ⟨by simp, by simp⟩

/-- **A read or a write** is lawful under its condition. -/
theorem transfer_spec (hw : WellFormed s) (hc : Consistent s.calls) :
    Triple (· = s) (transfer kind side lib fd res)
      (fun _ s' => WellFormed s' ∧
        (Consistent s'.calls ↔ TransferOk side s fd lib))
      (fun s' => Consistent s'.calls ↔ TransferOk side s fd lib) := by
  rcases Bool.eq_false_or_eq_true s.sslConnected with hconn | hidle
  · have hok : TransferOk side s fd lib ↔ ∃ k, s.ssl = some k ∧ .setFd k fd ∈ s.calls := by
      rw [TransferOk, if_pos hconn]
    rw [hok]
    exact (transfer_connected hw hc hconn).weaken (fun _ _ h => h) fun _ h => h.elim
  · have hok : TransferOk side s fd lib ↔ (lib.newContext = true →
        (¬ lib.ReachesSession side → s.ssl = none) ∧ (lib.Passes side → lib.handshake = 1)) := by
      rw [TransferOk, if_neg (by rw [hidle]; decide)]
    rw [hok]
    refine (transfer_idle hw hc hidle).weaken ?_ ?_
    · intro _ t ⟨hnew, hwf, hiff⟩
      exact ⟨hwf, hiff.trans ⟨fun h _ => h, fun h => h hnew⟩⟩
    · intro t ⟨hlaw, hlib⟩
      refine ⟨fun _ hnew => ?_, fun _ => hlaw⟩
      obtain ⟨hreach, hpass⟩ := hlib hnew
      exact ⟨fun h => (h hreach).elim, fun h => (hpass h).elim⟩

/-- What holds of a state at the end of a call as long as the law does. -/
def Sound (s : State Fd) : Prop := s.crashed = false → WellFormed s

theorem call_spec (hw : WellFormed s) (hc : Consistent s.calls) (hrun : s.crashed = false)
    (side : Side) (call : Call Fd) :
    Triple (· = s) (call.run side)
      (fun _ s' => WellFormed s' ∧ (Consistent s'.calls ↔ CallOk side s call))
      (fun s' => Consistent s'.calls ↔ CallOk side s call) := by
  have hok : ∀ p : Prop, (s.crashed = true ∨ p) ↔ p := by
    intro p
    rw [hrun]
    simp
  cases call with
  | read fd lib res =>
    rw [CallOk, hok]
    exact Triple.bind (transfer_spec hw hc) fun _ s' h => Triple.pure h
  | write fd lib res =>
    rw [CallOk, hok]
    exact Triple.bind (transfer_spec hw hc) fun _ s' h => Triple.pure h
  | reset =>
    rw [CallOk, hok]
    exact (reset_spec hw hc).weaken (fun _ _ h => h) fun _ h => h.elim

/-- **One call keeps the law exactly under its condition.** -/
theorem step_consistent_iff (side : Side) (s : State Fd) (call : Call Fd) (hs : Sound s)
    (hc : Consistent s.calls) :
    Sound (step side s call) ∧ (Consistent (step side s call).calls ↔ CallOk side s call) := by
  unfold step
  rcases Bool.eq_false_or_eq_true s.crashed with hcrashed | hrun
  · rw [if_pos hcrashed]
    exact ⟨hs, fun _ => Or.inl hcrashed, fun _ => hc⟩
  · rw [if_neg (by rw [hrun]; decide)]
    have h := call_spec (hs hrun) hc hrun side call s rfl
    cases hr : (call.run side).run.run s with
    | mk r s' =>
      rw [hr] at h
      cases r with
      | ok _ => exact ⟨fun _ => h.1, h.2⟩
      | error _ =>
        refine ⟨?_, h⟩
        intro hno
        cases hno

/-- **Secure connections**: in a run of reads, writes and resets, whatever the library answers,
the law holds in every state exactly if every call meets its condition. -/
theorem secure_consistent_iff (side : Side) (calls : List (Call Fd)) :
    (∀ pre, pre <+: calls → Consistent (pre.foldl (step side) {}).calls) ↔
      Along (step side) (CallOk side) {} calls :=
  Along.forall_prefix_iff (fun s call (_ : True) hs hc => step_consistent_iff side s call hs hc)
    (Along.of_forall (fun _ _ => trivial) _) (fun _ => wellFormed_init) trivial

/-- A handshake that fails, and then certificates that cannot be loaded. -/
def failedTwice : List (Call ℕ) :=
  [.read 4 { handshake := -1 } 0, .read 4 { useCertificateFile := 0 } 0]

/-- A second client after the first. -/
def secondClient : List (Call ℕ) := [.read 4 {} 100, .read 5 {} 100]

/-- A session freed twice, and a session used for another connection. -/
theorem stale_session :
    (¬ ∀ pre, pre <+: failedTwice → Consistent (pre.foldl (step .server) {}).calls) ∧
      ¬ ∀ pre, pre <+: secondClient → Consistent (pre.foldl (step .server) {}).calls := by
  constructor
  · intro h
    have hc := h failedTwice (List.prefix_refl _)
    -- the last call but one frees it again
    exact hc.2.1 (by decide)
  · intro h
    have hc := h secondClient (List.prefix_refl _)
    exact absurd hc.1.2.2.1 (by decide)

end Security

end Rds
