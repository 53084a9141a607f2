import Mathlib.Tactic.Common

/-!
# Two programs side by side

Two programs, each over a state of its own, return the same value or halt with the same error.
What ties their states together may be another relation before, after and where they halt. The
first program may be lost on the way, in a state that stays lost; nothing is said about it then.

* `Coupled.bind`, `Coupled.modify_bind`, …: one rule for each way two programs go on.
* `Stays`: what a program leaves true, however it ends.
-/

namespace Coupling

variable {ε σ τ α β : Type}

/-! ## What a program leaves true -/

/-- A condition on the state that a program leaves true, however it ends. -/
def Stays (K : σ → Prop) (x : ExceptT ε (StateM σ) α) : Prop :=
  ∀ s, K s → K (x.run.run s).2

section
variable {K : σ → Prop}

theorem Stays.pure (a : α) : Stays K (Pure.pure a : ExceptT ε (StateM σ) α) := fun _ hs => hs

theorem Stays.bind {x : ExceptT ε (StateM σ) α} {f : α → ExceptT ε (StateM σ) β}
    (hx : Stays K x) (hf : ∀ a, Stays K (f a)) : Stays K (x >>= f) := by
  intro s hs
  have h := hx s hs
  rw [ExceptT.run_bind, StateT.run_bind]
  cases hr : x.run.run s with
  | mk r s' =>
    rw [hr] at h
    cases r with
    | ok a => exact hf a s' h
    | error e => exact h

theorem Stays.get_bind {f : σ → ExceptT ε (StateM σ) β}
    (hf : ∀ s, K s → K ((f s).run.run s).2) :
    Stays K ((MonadState.get : ExceptT ε (StateM σ) σ) >>= f) := hf

theorem Stays.modify {g : σ → σ} (hg : ∀ s, K s → K (g s)) :
    Stays K (modify g : ExceptT ε (StateM σ) PUnit) := hg

/-- A result that was computed elsewhere. -/
theorem Stays.mk (r : Except ε α) : Stays K (ExceptT.mk (Pure.pure r) : ExceptT ε (StateM σ) α) :=
  fun _ hs => hs

end

/-! ## Two programs -/

/-- **Two runs that agree**: both return the same and `post` ties the states, or both halt with
the same error and `halt` does. -/
def Agree (x : ExceptT ε (StateM σ) α) (s : σ) (y : ExceptT ε (StateM τ) α) (t : τ)
    (post : α → σ → τ → Prop) (halt : σ → τ → Prop) : Prop :=
  (∃ a s' t', x.run.run s = (.ok a, s') ∧ y.run.run t = (.ok a, t') ∧ post a s' t') ∨
    ∃ e s' t', x.run.run s = (.error e, s') ∧ y.run.run t = (.error e, t') ∧ halt s' t'

/-- **Two runs that agree** unless the first is lost. -/
def Coupled (lost : σ → Prop) (x : ExceptT ε (StateM σ) α) (s : σ) (y : ExceptT ε (StateM τ) α)
    (t : τ) (post : α → σ → τ → Prop) (halt : σ → τ → Prop) : Prop :=
  lost (x.run.run s).2 ∨ Agree x s y t post halt

variable {lost : σ → Prop} {x : ExceptT ε (StateM σ) α} {y : ExceptT ε (StateM τ) α} {s : σ} {t : τ}
  {f : α → ExceptT ε (StateM σ) β} {g : α → ExceptT ε (StateM τ) β}
  {post : α → σ → τ → Prop} {post' : β → σ → τ → Prop} {halt : σ → τ → Prop}

/-- Both runs come to the same. -/
theorem Agree.result (h : Agree x s y t post halt) : (x.run.run s).1 = (y.run.run t).1 := by
  rcases h with ⟨a, s', t', hx, hy, -⟩ | ⟨e, s', t', hx, hy, -⟩
  · rw [hx, hy]
  · rw [hx, hy]

/-- What holds however the two end. -/
theorem Agree.states {R : σ → τ → Prop} (h : Agree x s y t post halt)
    (hpost : ∀ a s' t', post a s' t' → R s' t') (hhalt : ∀ s' t', halt s' t' → R s' t') :
    R (x.run.run s).2 (y.run.run t).2 := by
  rcases h with ⟨a, s', t', hx, hy, h⟩ | ⟨e, s', t', hx, hy, h⟩
  · rw [hx, hy]
    exact hpost a s' t' h
  · rw [hx, hy]
    exact hhalt s' t' h

theorem Coupled.pure {a : α} (h : post a s t) :
    Coupled lost (Pure.pure a : ExceptT ε (StateM σ) α) s (Pure.pure a) t post halt :=
  Or.inr (Or.inl ⟨a, s, t, rfl, rfl, h⟩)

/-- **Two parts that agree**, and what follows them. -/
theorem Coupled.bind (hxy : Coupled lost x s y t post halt) (hlost : ∀ a, Stays lost (f a))
    (hfg : ∀ a s' t', post a s' t' → Coupled lost (f a) s' (g a) t' post' halt) :
    Coupled lost (x >>= f) s (y >>= g) t post' halt := by
  unfold Coupled Agree
  rw [ExceptT.run_bind, StateT.run_bind, ExceptT.run_bind, StateT.run_bind]
  rcases hxy with hl | ⟨a, s', t', hx, hy, h⟩ | ⟨e, s', t', hx, hy, h⟩
  · left
    cases hr : x.run.run s with
    | mk r s' =>
      rw [hr] at hl
      cases r with
      | ok a => exact hlost a s' hl
      | error e => exact hl
  · rw [hx, hy]
    exact hfg a s' t' h
  · rw [hx, hy]
    exact Or.inr (Or.inr ⟨e, s', t', rfl, rfl, h⟩)

/-- Parts that read their states. -/
theorem Coupled.get_bind {f : σ → ExceptT ε (StateM σ) β} {g : τ → ExceptT ε (StateM τ) β}
    (h : Coupled lost (f s) s (g t) t post' halt) :
    Coupled lost ((MonadState.get : ExceptT ε (StateM σ) σ) >>= f) s
      ((MonadState.get : ExceptT ε (StateM τ) τ) >>= g) t post' halt := h

theorem Coupled.set_bind {s' : σ} {t' : τ} {f : PUnit → ExceptT ε (StateM σ) β}
    {g : PUnit → ExceptT ε (StateM τ) β} (h : Coupled lost (f ⟨⟩) s' (g ⟨⟩) t' post' halt) :
    Coupled lost ((MonadStateOf.set s' : ExceptT ε (StateM σ) PUnit) >>= f) s
      ((MonadStateOf.set t' : ExceptT ε (StateM τ) PUnit) >>= g) t post' halt := h

theorem Coupled.modify_bind {p : σ → σ} {q : τ → τ} {f : PUnit → ExceptT ε (StateM σ) β}
    {g : PUnit → ExceptT ε (StateM τ) β}
    (h : Coupled lost (f ⟨⟩) (p s) (g ⟨⟩) (q t) post' halt) :
    Coupled lost ((modify p : ExceptT ε (StateM σ) PUnit) >>= f) s
      ((modify q : ExceptT ε (StateM τ) PUnit) >>= g) t post' halt := h

/-- One result for both, computed elsewhere. -/
theorem Coupled.mk_bind {r : Except ε α}
    (hok : ∀ a, r = .ok a → Coupled lost (f a) s (g a) t post' halt)
    (herr : ∀ e, r = .error e → halt s t) :
    Coupled lost ((ExceptT.mk (Pure.pure r) : ExceptT ε (StateM σ) α) >>= f) s
      ((ExceptT.mk (Pure.pure r) : ExceptT ε (StateM τ) α) >>= g) t post' halt := by
  cases hr : r with
  | ok a => exact hok a hr
  | error e => exact Or.inr (Or.inr ⟨e, s, t, rfl, rfl, herr e hr⟩)

end Coupling
