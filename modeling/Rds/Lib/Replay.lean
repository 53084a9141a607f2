import Mathlib.Tactic.Common

/-!
# Programs run again with one more input

A program that reads its inputs from its state, and halts as waiting where they end, is run a
second time with one input more. The first run is a beginning of the second.

* `Resumes`: what a part of such a program has to satisfy.
* `Resumes.bind`, `Resumes.get_bind`, …: one rule for each way a program goes on.
-/

namespace Replay

variable {ε σ α β I O : Type}

/-- How a state holds inputs and outputs, and how it gets one more input. -/
structure Tape (σ I O : Type) where
  inputs : σ → List I
  outputs : σ → List O
  waiting : σ → Prop
  more : I → σ → σ

/-- What is asked of a run that did not start waiting. -/
structure ResumesAt (T : Tape σ I O) (x : ExceptT ε (StateM σ) α) (s : σ) : Prop where
  outputs : T.outputs s <+: T.outputs (x.run.run s).2
  inputs : T.inputs (x.run.run s).2 <:+ T.inputs s
  halts : T.waiting (x.run.run s).2 → ∃ e, (x.run.run s).1 = .error e
  same : ∀ i, ¬ T.waiting (x.run.run s).2 →
    x.run.run (T.more i s) = ((x.run.run s).1, T.more i (x.run.run s).2)
  goesOn : ∀ i, T.waiting (x.run.run s).2 → T.inputs (x.run.run (T.more i s)).2 = [] ∧
    T.outputs (x.run.run s).2 <+: T.outputs (x.run.run (T.more i s)).2

/-- **A program that resumes**: with one more input it does the same, and then goes on. -/
def Resumes (T : Tape σ I O) (x : ExceptT ε (StateM σ) α) : Prop :=
  ∀ s, ¬ T.waiting s → ResumesAt T x s

/-- What a tape has to do with one more input. -/
structure Tape.Lawful (T : Tape σ I O) : Prop where
  waiting : ∀ i s, T.waiting (T.more i s) ↔ T.waiting s

variable {T : Tape σ I O}

theorem run_bind_ok {x : ExceptT ε (StateM σ) α} {f : α → ExceptT ε (StateM σ) β} {s s' : σ} {a : α}
    (h : x.run.run s = (.ok a, s')) : (x >>= f).run.run s = (f a).run.run s' := by
  rw [ExceptT.run_bind, StateT.run_bind]
  simp only [h]
  rfl

theorem run_bind_error {x : ExceptT ε (StateM σ) α} {f : α → ExceptT ε (StateM σ) β} {s s' : σ}
    {e : ε} (h : x.run.run s = (.error e, s')) : (x >>= f).run.run s = (.error e, s') := by
  rw [ExceptT.run_bind, StateT.run_bind]
  simp only [h]
  rfl

theorem run_get_bind (f : σ → ExceptT ε (StateM σ) β) (s : σ) :
    ((MonadState.get : ExceptT ε (StateM σ) σ) >>= f).run.run s = (f s).run.run s := rfl

theorem Resumes.pure (a : α) :
    Resumes T (Pure.pure a : ExceptT ε (StateM σ) α) := by
  intro s hs
  refine ⟨List.prefix_rfl, List.suffix_rfl, fun h => absurd h hs, fun i _ => rfl, ?_⟩
  exact fun i h => absurd h hs

/-- A result that was computed elsewhere. -/
theorem Resumes.result (r : Except ε α) :
    Resumes T (ExceptT.mk (Pure.pure r) : ExceptT ε (StateM σ) α) := by
  intro s hs
  refine ⟨List.prefix_rfl, List.suffix_rfl, fun h => absurd h hs, fun i _ => rfl, ?_⟩
  exact fun i h => absurd h hs

/-- **Two parts that resume**, one after the other. -/
theorem Resumes.bind (hT : T.Lawful) {x : ExceptT ε (StateM σ) α} {f : α → ExceptT ε (StateM σ) β}
    (hx : Resumes T x) (hf : ∀ a, Resumes T (f a)) : Resumes T (x >>= f) := by
  intro s hs
  have h := hx s hs
  cases hr : x.run.run s with
  | mk r t =>
    have hout := h.outputs
    have hin := h.inputs
    have hhalts := h.halts
    have hsame := h.same
    have hgoes := h.goesOn
    simp only [hr] at hout hin hhalts hsame hgoes
    cases r with
    | ok a =>
      -- the first part did not wait, so the second one takes over
      have ht : ¬ T.waiting t := by
        intro hw
        obtain ⟨e, he⟩ := hhalts hw
        cases he
      have hft := hf a t ht
      have hmore : ∀ i, (x >>= f).run.run (T.more i s) = (f a).run.run (T.more i t) :=
        fun i => run_bind_ok (hsame i ht)
      refine ⟨?_, ?_, ?_, ?_, ?_⟩
      · rw [run_bind_ok hr]
        exact hout.trans hft.outputs
      · rw [run_bind_ok hr]
        exact hft.inputs.trans hin
      · rw [run_bind_ok hr]
        exact hft.halts
      · intro i
        rw [run_bind_ok hr, hmore i]
        exact hft.same i
      · intro i
        rw [run_bind_ok hr, hmore i]
        exact hft.goesOn i
    | error e =>
      refine ⟨?_, ?_, ?_, ?_, ?_⟩
      · rw [run_bind_error hr]
        exact hout
      · rw [run_bind_error hr]
        exact hin
      · rw [run_bind_error hr]
        exact fun _ => ⟨e, rfl⟩
      · intro i hw
        rw [run_bind_error hr] at hw ⊢
        exact run_bind_error (hsame i hw)
      · intro i hw
        rw [run_bind_error hr] at hw ⊢
        obtain ⟨hnil, hpre⟩ := hgoes i hw
        -- the second run may go on into the second part
        have hs' : ¬ T.waiting (T.more i s) := fun h => hs ((hT.waiting i s).1 h)
        have h' := hx _ hs'
        cases hr' : x.run.run (T.more i s) with
        | mk r' t' =>
          rw [hr'] at hnil hpre
          cases r' with
          | error e' =>
            rw [run_bind_error hr']
            exact ⟨hnil, hpre⟩
          | ok a' =>
            rw [run_bind_ok hr']
            have ht' : ¬ T.waiting t' := by
              intro hw'
              obtain ⟨e', he'⟩ := h'.halts (by rw [hr']; exact hw')
              rw [hr'] at he'
              cases he'
            have hft := hf a' t' ht'
            refine ⟨?_, hpre.trans hft.outputs⟩
            have hin' := hft.inputs
            rw [hnil] at hin'
            exact List.suffix_nil.1 hin'

/-- A part that reads the state without looking at the inputs. -/
theorem Resumes.get_bind {f : σ → ExceptT ε (StateM σ) β} (hf : ∀ s, Resumes T (f s))
    (hmore : ∀ i s, f (T.more i s) = f s) :
    Resumes T ((MonadState.get : ExceptT ε (StateM σ) σ) >>= f) := by
  intro s hs
  have h := hf s s hs
  refine ⟨?_, ?_, ?_, ?_, ?_⟩
  · rw [run_get_bind]
    exact h.outputs
  · rw [run_get_bind]
    exact h.inputs
  · rw [run_get_bind]
    exact h.halts
  · intro i
    rw [run_get_bind, run_get_bind, hmore]
    exact h.same i
  · intro i
    rw [run_get_bind, run_get_bind, hmore]
    exact h.goesOn i

/-- A change of the state that leaves the inputs alone. -/
theorem Resumes.of_modify {g : σ → σ} (hout : ∀ s, T.outputs s <+: T.outputs (g s))
    (hin : ∀ s, T.inputs (g s) = T.inputs s) (hwait : ∀ s, T.waiting (g s) ↔ T.waiting s)
    (hmore : ∀ i s, g (T.more i s) = T.more i (g s)) :
    Resumes T (modify g : ExceptT ε (StateM σ) PUnit) := by
  intro s hs
  have hrun : ∀ t, (modify g : ExceptT ε (StateM σ) PUnit).run.run t = (.ok ⟨⟩, g t) :=
    fun t => rfl
  refine ⟨hout s, ?_, ?_, ?_, ?_⟩
  · rw [hrun]
    exact ⟨[], hin s⟩
  · intro hw
    exact absurd ((hwait s).1 hw) hs
  · intro i _
    rw [hrun, hrun, hmore]
  · intro i hw
    exact absurd ((hwait s).1 hw) hs

end Replay
