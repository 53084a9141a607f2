import Mathlib.Order.Defs.Unbundled
import Mathlib.Tactic.Common

/-!
# Programs with a record beside

A program is written a second time, over a state that records something it does. The second
one may stop where the first goes on; where it returns, it returns what the first returns, and
its state has moved along a relation.

* `Follows`: this relation between the two.
* `Follows.bind`, `Follows.foldlM`, `Follows.mapM`: one rule for each way a program goes on.
-/

namespace Instrument

variable {ε σ α β γ : Type}

/-- From a program that returned: each of its parts did. -/
theorem run_bind_eq_some {x : StateT σ Option α} {f : α → StateT σ Option β} {s s'' : σ} {b : β} :
    (x >>= f).run s = some (b, s'') ↔
      ∃ a s', x.run s = some (a, s') ∧ (f a).run s' = some (b, s'') := by
  rw [StateT.run_bind]
  constructor
  · intro h
    obtain ⟨⟨a, s'⟩, hx, hf⟩ := Option.bind_eq_some_iff.1 h
    exact ⟨a, s', hx, hf⟩
  · rintro ⟨a, s', hx, hf⟩
    exact Option.bind_eq_some_iff.2 ⟨(a, s'), hx, hf⟩

theorem run_pure_eq_some {a b : α} {s s' : σ} :
    (pure a : StateT σ Option α).run s = some (b, s') ↔ b = a ∧ s' = s := by
  rw [StateT.run_pure]
  constructor
  · intro h
    cases h
    exact ⟨rfl, rfl⟩
  · rintro ⟨rfl, rfl⟩
    rfl

theorem run_lift_eq_some {x : Except ε α} {a : α} {s s' : σ} :
    (StateT.lift x.toOption : StateT σ Option α).run s = some (a, s') ↔ x = .ok a ∧ s' = s := by
  cases x with
  | error e =>
    constructor
    · intro h
      cases h
    · rintro ⟨h, -⟩
      cases h
  | ok b =>
    constructor
    · intro h
      cases h
      exact ⟨rfl, rfl⟩
    · rintro ⟨h, rfl⟩
      cases h
      rfl

/-- **What returns follows**: it returns what `y` does, and moves along `R`. -/
def Follows (R : σ → σ → Prop) (x : StateT σ Option α) (y : Except ε α) : Prop :=
  ∀ s a s', x.run s = some (a, s') → y = .ok a ∧ R s s'

variable {R : σ → σ → Prop}

theorem Follows.failure (y : Except ε α) : Follows R (failure : StateT σ Option α) y := by
  intro s a s' h
  cases h

variable [IsPreorder σ R]

theorem Follows.pure (a : α) :
    Follows R (pure a : StateT σ Option α) (Pure.pure a : Except ε α) := by
  intro s b s' h
  obtain ⟨rfl, rfl⟩ := run_pure_eq_some.1 h
  exact ⟨rfl, refl_of R _⟩

/-- A part without a record. -/
theorem Follows.lift (x : Except ε α) :
    Follows R (StateT.lift x.toOption : StateT σ Option α) x := by
  intro s a s' h
  obtain ⟨hx, rfl⟩ := run_lift_eq_some.1 h
  exact ⟨hx, refl_of R _⟩

/-- **One part after the other.** -/
theorem Follows.bind {x : StateT σ Option α} {y : Except ε α}
    {f : α → StateT σ Option β} {g : α → Except ε β} (hx : Follows R x y)
    (hf : ∀ a, Follows R (f a) (g a)) : Follows R (x >>= f) (y >>= g) := by
  intro s b s'' h
  obtain ⟨a, s', h₁, h₂⟩ := run_bind_eq_some.1 h
  obtain ⟨rfl, hR₁⟩ := hx s a s' h₁
  obtain ⟨hg, hR₂⟩ := hf a s' b s'' h₂
  exact ⟨hg, trans_of R hR₁ hR₂⟩

/-- A part whose value is known without it. -/
theorem Follows.value {x : StateT σ Option α} {f : α → StateT σ Option β} {v : α} {y : Except ε β}
    (hx : Follows R x (Pure.pure v : Except ε α)) (hf : Follows R (f v) y) :
    Follows R (x >>= f) y := by
  intro s b s'' h
  obtain ⟨a, s', h₁, h₂⟩ := run_bind_eq_some.1 h
  obtain ⟨hv, hR₁⟩ := hx s a s' h₁
  cases hv
  obtain ⟨hy, hR₂⟩ := hf s' b s'' h₂
  exact ⟨hy, trans_of R hR₁ hR₂⟩

/-- A part that is only recorded. -/
theorem Follows.recorded {x : StateT σ Option α} {f : α → StateT σ Option β}
    {y : Except ε β} (hx : ∀ s a s', x.run s = some (a, s') → R s s')
    (hf : ∀ a, Follows R (f a) y) : Follows R (x >>= f) y := by
  intro s b s'' h
  obtain ⟨a, s', h₁, h₂⟩ := run_bind_eq_some.1 h
  obtain ⟨hy, hR₂⟩ := hf a s' b s'' h₂
  exact ⟨hy, trans_of R (hx s a s' h₁) hR₂⟩

/-- A loop over a list. -/
theorem Follows.foldlM {f : β → α → StateT σ Option β} {g : β → α → Except ε β}
    (hf : ∀ b a, Follows R (f b a) (g b a)) (l : List α) :
    ∀ b, Follows R (l.foldlM f b) (l.foldlM g b) := by
  induction l with
  | nil => exact fun b => .pure b
  | cons a l ih =>
    intro b
    rw [List.foldlM_cons, List.foldlM_cons]
    exact (hf b a).bind ih

theorem Follows.mapM {f : α → StateT σ Option β} {g : α → Except ε β}
    (hf : ∀ a, Follows R (f a) (g a)) (l : List α) : Follows R (l.mapM f) (l.mapM g) := by
  induction l with
  | nil => exact .pure []
  | cons a l ih =>
    rw [List.mapM_cons, List.mapM_cons]
    exact (hf a).bind fun b => ih.bind fun bs => .pure _

/-- A loop over a list whose turns have known values. -/
theorem Follows.foldl {f : β → α → StateT σ Option β} {g : β → α → β}
    (hf : ∀ b a, Follows R (f b a) (Pure.pure (g b a) : Except ε β)) (l : List α) (b : β) :
    Follows R (l.foldlM f b) (Pure.pure (l.foldl g b) : Except ε β) := by
  rw [← List.foldlM_pure]
  exact Follows.foldlM hf l b

theorem Follows.map {f : α → StateT σ Option β} {g : α → β}
    (hf : ∀ a, Follows R (f a) (Pure.pure (g a) : Except ε β)) (l : List α) :
    Follows R (l.mapM f) (Pure.pure (l.map g) : Except ε (List β)) := by
  rw [← List.mapM_pure]
  exact Follows.mapM hf l

end Instrument
