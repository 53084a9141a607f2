import Rds.Proof.Receive
import Rds.Spec.Server

/-!
# The receiving loop of an upload

* `uploadLoop_ok_iff`: what one turn does, as a case split over the frame it reads.
* `UploadInv`: what the file holds and what may still arrive never exceed the client's
  file together, and make it up exactly if they are as long.
* `uploadLoop_exact`: a loop that ends by its count has stored the client's file.
-/

namespace Rds

variable {env : Env} {u : Upload}

/-- The bytes of a frame that its count covers. -/
def frameData (g : List ReadRes) (x : ReadRes) : List Byte :=
  (bytesOf g ++ x.bytes).take (frameRet g x).toNat

/-- The turn that reads this frame stores it. -/
def Stores (env : Env) (sv : Server) (g : List ReadRes) (x : ReadRes) : Prop :=
  0 ≤ frameRet g x ∧ frameRet g x ≤ env.fwrite sv.tick

/-- The server after a turn that stored `data`. -/
def Server.stored (sv : Server) (u : Upload) (t : Sock) (data : List Byte) : Server :=
  (({ sv with sock := t } : Server).setFile u.file ((sv.file u.file).getD [] ++ data)).tock

/-- The message after a write error. -/
def writeErrorMessage (u : Upload) (json : SsdsJsonCreate) : SsdsJsonCreate :=
  ssdsJsCrSetMessage (ssdsJsCrInsertCode json .answerError) u.writeError

/-! ## One turn -/

theorem ReadRes.ret_bounds (r : ReadRes) : -1 ≤ r.ret ∧ r.ret ≤ maxInputLen := by
  cases r with
  | err => exact ⟨le_rfl, by decide⟩
  | got bs le => simp only [ret]; omega

/-- The count of a frame within the limit is an `int`. -/
theorem frameRet_bounds {g : List ReadRes} {x : ReadRes} (hx : x.Short) (hl : g.length < recvLimit) :
    -1 ≤ frameRet g x ∧ frameRet g x < 2 ^ 31 := by
  have h1 := x.ret_bounds.1
  have h2 : x.ret < maxInputLen := hx
  unfold frameRet maxInputLen recvLimit at *
  omega

theorem toInt_frameRet {g : List ReadRes} {x : ReadRes} (hx : x.Short) (hl : g.length < recvLimit) :
    toInt (frameRet g x) = frameRet g x := by
  obtain ⟨h1, h2⟩ := frameRet_bounds hx hl
  exact toInt_eq (by omega) h2

theorem frameRet_le_length (g : List ReadRes) (x : ReadRes) (hg : ∀ r ∈ g, ¬ r.Short) :
    frameRet g x ≤ (bytesOf g ++ x.bytes).length := by
  unfold frameRet
  rw [List.length_append, bytesOf_full_length hg]
  cases x <;> simp [ReadRes.ret, ReadRes.bytes]

/-- The count covers the bytes handed to `fwrite`. -/
theorem take_frameBuf {g : List ReadRes} {x : ReadRes} (hg : ∀ r ∈ g, ¬ r.Short)
    (h0 : 0 ≤ frameRet g x) :
    ((frameBuf g x).getD []).take (frameRet g x).toNat = frameData g x := by
  cases hb : frameBuf g x with
  | none =>
    unfold frameBuf at hb
    split at hb
    · exact absurd h0 (by decide)
    · cases hb
  | some b =>
    have hle := frameRet_le_length g x hg
    rw [Option.getD_some, frameBuf_eq hb]
    unfold frameData
    exact List.take_append_of_le_length (by omega)

theorem frameData_length {g : List ReadRes} {x : ReadRes} (hg : ∀ r ∈ g, ¬ r.Short)
    (h0 : 0 ≤ frameRet g x) : ((frameData g x).length : ℤ) = frameRet g x := by
  have hle := frameRet_le_length g x hg
  unfold frameData
  rw [List.length_take]
  omega

/-- **One `fwrite` of a frame**: it stores the bytes counted or fails. -/
theorem fwriteFile_frame {sv : Server} {f : UploadFile} {g : List ReadRes} {x : ReadRes}
    (hg : ∀ r ∈ g, ¬ r.Short) (hu : u.file = f) (t : Sock) :
    (Stores env sv g x ∧ fwriteFile env { sv with sock := t } f (frameRet g x) (frameBuf g x) =
        (true, sv.stored u t (frameData g x))) ∨
      (¬ Stores env sv g x ∧
        (fwriteFile env { sv with sock := t } f (frameRet g x) (frameBuf g x)).1 = false) := by
  unfold fwriteFile Stores
  by_cases h0 : frameRet g x < 0
  -- a count of -1 stores nothing
  · right; rw [if_pos h0]; exact ⟨by omega, rfl⟩
  · rw [if_neg h0]
    by_cases hw : frameRet g x ≤ env.fwrite sv.tick
    · left
      refine ⟨⟨by omega, hw⟩, ?_⟩
      have hmin : min (frameRet g x).toNat (env.fwrite sv.tick) = (frameRet g x).toNat := by omega
      simp only [hmin, take_frameBuf hg (not_lt.1 h0), decide_true, Server.stored, hu]
      cases f <;> rfl
    · right
      refine ⟨by omega, ?_⟩
      simp only [decide_eq_false_iff_not]
      omega

/-- How the loop ends from a turn that reads the frame `g`, `x`: it stores the frame, and
stops if the count is reached or goes on, or it stops with a write error. -/
def TurnEnds (env : Env) (u : Upload) (n : ℤ) (fuel : ℕ) (w : ℤ) (json : SsdsJsonCreate)
    (sv : Server) (g : List ReadRes) (x : ReadRes) (t : Sock) (json' : SsdsJsonCreate)
    (sv' : Server) : Prop :=
  (Stores env sv g x ∧ toInt (w + frameRet g x) = n ∧ json' = json ∧
      sv' = sv.stored u t (frameData g x)) ∨
    (Stores env sv g x ∧ toInt (w + frameRet g x) ≠ n ∧
      uploadLoop env u n fuel (toInt (w + frameRet g x)) json (sv.stored u t (frameData g x)) =
        .ok (json', sv')) ∨
    (¬ Stores env sv g x ∧ json' = writeErrorMessage u json ∧
      sv' = { (fwriteFile env { sv with sock := t } u.file (frameRet g x) (frameBuf g x)).2 with
        clientEnd := true })

theorem uploadLoop_of_frame {n w : ℤ} {fuel : ℕ} {json json' : SsdsJsonCreate} {sv sv' : Server}
    {g : List ReadRes} {x : ReadRes} {t : Sock} (hf : SockFrame sv.sock g x t)
    (hl : g.length < recvLimit) :
    uploadLoop env u n (fuel + 1) w json sv = .ok (json', sv') ↔
      TurnEnds env u n fuel w json sv g x t json' sv' := by
  rw [uploadLoop, sockSolvRecv_iff.2 ⟨g, x, hf, hl, rfl, rfl⟩]
  unfold TurnEnds
  simp only [bind, Except.bind, toInt_frameRet hf.short_last hl]
  have hturn : _ ∨ _ := @fwriteFile_frame env u sv u.file g x hf.long rfl t
  rcases hturn with ⟨hs, hw⟩ | ⟨hs, hw⟩
  -- the test for a read error comes after a write that -1 already fails
  · have h0 : ¬ frameRet g x < 0 := not_lt.2 hs.1
    simp only [hw, if_neg h0, hs, true_and, not_true_eq_false, false_and, or_false]
    by_cases hn : toInt (w + frameRet g x) = n
    · simp [hn, pure, Except.pure, eq_comm]
    · simp [hn]
  · obtain ⟨sv₁, hw₁⟩ : ∃ sv₁, fwriteFile env { sv with sock := t } u.file (frameRet g x)
        (frameBuf g x) = (false, sv₁) := ⟨_, Prod.ext hw rfl⟩
    simp [hw₁, hs, pure, Except.pure, writeErrorMessage, eq_comm]

/-- **A turn of the loop**, by the frame it reads. -/
theorem uploadLoop_ok_iff {n w : ℤ} {fuel : ℕ} {json json' : SsdsJsonCreate} {sv sv' : Server} :
    uploadLoop env u n (fuel + 1) w json sv = .ok (json', sv') ↔
      ∃ g x t, SockFrame sv.sock g x t ∧ g.length < recvLimit ∧
        TurnEnds env u n fuel w json sv g x t json' sv' := by
  constructor
  · intro h
    have h' := h
    rw [uploadLoop] at h
    obtain ⟨⟨⟨ret, buf⟩, t⟩, hr, -⟩ := bind_eq_ok.1 h
    obtain ⟨g, x, hf, hl, -, -⟩ := sockSolvRecv_iff.1 hr
    exact ⟨g, x, t, hf, hl, (uploadLoop_of_frame hf hl).1 h'⟩
  · rintro ⟨g, x, t, hf, hl, h⟩
    exact (uploadLoop_of_frame hf hl).2 h

@[simp] theorem Server.stored_file (sv : Server) (u : Upload) (t : Sock) (data : List Byte) :
    (sv.stored u t data).file u.file = some ((sv.file u.file).getD [] ++ data) := by
  obtain ⟨f, _, _, _⟩ := u
  cases f <;> rfl

@[simp] theorem Server.stored_sock (sv : Server) (u : Upload) (t : Sock) (data : List Byte) :
    (sv.stored u t data).sock = t := by
  obtain ⟨f, _, _, _⟩ := u
  cases f <;> rfl

/-! ## The count against the file -/

/-- **The counting invariant**: what is stored and what may still arrive are together no
longer than the client's file, and are that file if they are as long. -/
structure UploadInv (stored avail data : List Byte) : Prop where
  le : stored.length + avail.length ≤ data.length
  eq : stored.length + avail.length = data.length → stored ++ avail = data

/-- Storing only part of what a frame took loses the equality for good. -/
theorem UploadInv.step {stored d avail data : List Byte} (h : UploadInv stored (d ++ avail) data)
    (k : ℕ) : UploadInv (stored ++ d.take k) avail data := by
  have hle := h.le
  have hk : (d.take k).length ≤ d.length := by rw [List.length_take]; omega
  simp only [List.length_append] at hle
  refine ⟨by simp only [List.length_append]; omega, ?_⟩
  intro heq
  simp only [List.length_append] at heq
  have hd : d.take k = d := (List.take_sublist k d).eq_of_length (by omega)
  have := h.eq (by simp only [List.length_append]; omega)
  rw [hd, List.append_assoc]; exact this

/-- A suffix of the client's file, with nothing stored yet. -/
theorem UploadInv.start {avail data : List Byte} {p : List Byte} (h : p ++ avail <+: data) :
    UploadInv [] avail data := by
  obtain ⟨q, rfl⟩ := h
  refine ⟨by simp; omega, ?_⟩
  intro heq
  simp only [List.length_nil, List.length_append] at heq
  have hp : p = [] := List.length_eq_zero_iff.1 (by omega)
  have hq : q = [] := List.length_eq_zero_iff.1 (by omega)
  simp [hp, hq]

/-- **A loop that ends by its count has stored the client's file.** It can only do so if
nothing was missing from the start. -/
theorem uploadLoop_exact {data : List Byte} (hN : data.length < 2 ^ 31) {fuel : ℕ} :
    ∀ {stored : List Byte} {json json' : SsdsJsonCreate} {sv sv' : Server},
      sv.file u.file = some stored → UploadInv stored (bytesOf sv.sock.reads) data →
      uploadLoop env u data.length fuel stored.length json sv = .ok (json', sv') →
      (json' = json ∧ sv'.file u.file = some data ∧ bytesOf sv'.sock.reads = [] ∧
          stored.length + (bytesOf sv.sock.reads).length = data.length) ∨
        json' = writeErrorMessage u json := by
  induction fuel with
  | zero => intro _ _ _ _ _ _ _ h; cases h
  | succ fuel ih =>
    intro stored json json' sv sv' hfile hinv h
    obtain ⟨g, x, t, hf, -, h⟩ := uploadLoop_ok_iff.1 h
    have hcont := hf.content
    have hlen : Stores env sv g x → ((stored ++ frameData g x).length : ℤ) =
        stored.length + frameRet g x := by
      intro hs
      rw [List.length_append]; push_cast
      rw [frameData_length hf.long hs.1]
    have hnext : UploadInv (stored ++ frameData g x) (bytesOf t.reads) data :=
      UploadInv.step (by rw [hcont] at hinv; exact hinv) _
    have hsum : (stored ++ frameData g x).length + (bytesOf t.reads).length ≤
        stored.length + (bytesOf sv.sock.reads).length := by
      rw [hcont]
      simp only [frameData, List.length_append, List.length_take]; omega
    -- the sum of the counts stays below 2^31, so the `int` does not wrap
    have hle := hnext.le
    have hint : Stores env sv g x → toInt (stored.length + frameRet g x) =
        ((stored ++ frameData g x).length : ℤ) := by
      intro hs
      rw [← hlen hs]; exact toInt_eq (by omega) (by omega)
    rcases h with ⟨hs, hn, rfl, rfl⟩ | ⟨hs, hn, h⟩ | ⟨hs, rfl, rfl⟩
    · left
      rw [hint hs] at hn
      have hn' : (stored ++ frameData g x).length = data.length := by exact_mod_cast hn
      -- with the count reached there is no room left for bytes to come
      have hrest : bytesOf t.reads = [] := List.length_eq_zero_iff.1 (by omega)
      have hdata := hnext.eq (by rw [hrest, hn']; rfl)
      rw [hrest, List.append_nil] at hdata
      refine ⟨rfl, ?_, ?_, ?_⟩
      · rw [Server.stored_file, hfile, Option.getD_some, hdata]
      · rw [Server.stored_sock]; exact hrest
      · have := hinv.le; omega
    · rw [hint hs] at h
      have hfile' : (sv.stored u t (frameData g x)).file u.file = some (stored ++ frameData g x) := by
        rw [Server.stored_file, hfile, Option.getD_some]
      rcases ih hfile' (by rw [Server.stored_sock]; exact hnext) h with
        ⟨hj, hd, hr, hs'⟩ | hj
      · left
        refine ⟨hj, hd, hr, ?_⟩
        rw [Server.stored_sock] at hs'
        have := hinv.le
        omega
      · exact Or.inr hj
    · exact Or.inr rfl

end Rds
