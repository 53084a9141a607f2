import Mathlib.Order.Lattice
import Mathlib.Tactic.Common

/-!
# A loop that serves one item after the other

Each turn serves an item, within some number of steps, or does not come back. The loop ends with the
first turn that does not.

* `Steady`: more steps do not change what a turn comes to.
* `Served`: what the items make of a state, if every turn comes back.
* `Served.each_iff`: **all items are served** if each is, once those before it have been.
-/

namespace Turns

variable {ε σ α : Type} {turn : ℕ → α → σ → Except ε σ} {a : α} {as bs : List α} {s s' : σ}

/-- Turns that come to the same with more steps. -/
def Steady (turn : ℕ → α → σ → Except ε σ) : Prop :=
  ∀ ⦃n m : ℕ⦄, n ≤ m → ∀ a s s', turn n a s = .ok s' → turn m a s = .ok s'

/-- The loop, with `n` steps for each turn. -/
def loop (turn : ℕ → α → σ → Except ε σ) (n : ℕ) : List α → σ → Except ε σ
  | [], s => .ok s
  | a :: as, s => do loop turn n as (← turn n a s)

/-- The items have been served, and left the state `s'`. -/
def Served (turn : ℕ → α → σ → Except ε σ) (as : List α) (s s' : σ) : Prop :=
  ∃ n, loop turn n as s = .ok s'

theorem loop_cons_iff {n : ℕ} :
    loop turn n (a :: as) s = .ok s' ↔ ∃ s₁, turn n a s = .ok s₁ ∧ loop turn n as s₁ = .ok s' := by
  rw [loop]
  cases h : turn n a s with
  | error e => simp [bind, Except.bind]
  | ok s₁ => simp [bind, Except.bind]

theorem Steady.loop (hturn : Steady turn) {n m : ℕ} (hle : n ≤ m)
    (h : loop turn n as s = .ok s') : loop turn m as s = .ok s' := by
  induction as generalizing s with
  | nil => exact h
  | cons a as ih =>
    obtain ⟨s₁, ha, has⟩ := loop_cons_iff.1 h
    exact loop_cons_iff.2 ⟨s₁, hturn hle a s s₁ ha, ih has⟩

theorem Served.nil_iff : Served turn [] s s' ↔ s' = s := by
  constructor
  · rintro ⟨n, h⟩
    exact (Except.ok.inj h).symm
  · rintro rfl
    exact ⟨0, rfl⟩

theorem Served.cons_iff (hturn : Steady turn) :
    Served turn (a :: as) s s' ↔ ∃ n s₁, turn n a s = .ok s₁ ∧ Served turn as s₁ s' := by
  constructor
  · rintro ⟨n, h⟩
    obtain ⟨s₁, ha, has⟩ := loop_cons_iff.1 h
    exact ⟨n, s₁, ha, n, has⟩
  · rintro ⟨n, s₁, ha, m, has⟩
    -- steps enough for both
    refine ⟨max n m, loop_cons_iff.2 ⟨s₁, ?_, ?_⟩⟩
    · exact hturn (le_max_left n m) a s s₁ ha
    · exact hturn.loop (le_max_right n m) has

theorem Served.one_iff (hturn : Steady turn) :
    Served turn [a] s s' ↔ ∃ n, turn n a s = .ok s' := by
  rw [Served.cons_iff hturn]
  constructor
  · rintro ⟨n, s₁, ha, h⟩
    rw [Served.nil_iff.1 h]
    exact ⟨n, ha⟩
  · rintro ⟨n, ha⟩
    exact ⟨n, s', ha, Served.nil_iff.2 rfl⟩

theorem Served.append_iff (hturn : Steady turn) :
    Served turn (as ++ bs) s s' ↔ ∃ s₁, Served turn as s s₁ ∧ Served turn bs s₁ s' := by
  induction as generalizing s with
  | nil =>
    constructor
    · intro h
      exact ⟨s, Served.nil_iff.2 rfl, h⟩
    · rintro ⟨s₁, hnil, h⟩
      rw [Served.nil_iff.1 hnil] at h
      exact h
  | cons a as ih =>
    rw [List.cons_append, Served.cons_iff hturn]
    constructor
    · rintro ⟨n, s₂, ha, hrest⟩
      obtain ⟨s₁, has, hbs⟩ := ih.1 hrest
      exact ⟨s₁, (Served.cons_iff hturn).2 ⟨n, s₂, ha, has⟩, hbs⟩
    · rintro ⟨s₁, has, hbs⟩
      obtain ⟨n, s₂, ha, hrest⟩ := (Served.cons_iff hturn).1 has
      exact ⟨n, s₂, ha, ih.2 ⟨s₁, hrest, hbs⟩⟩

/-- **All are served** if the turn of each comes back, once those before it have been served. -/
theorem Served.each_iff (hturn : Steady turn) : (∃ s', Served turn as s s') ↔
    ∀ before a after s₁, as = before ++ a :: after → Served turn before s s₁ →
      ∃ n s₂, turn n a s₁ = .ok s₂ := by
  constructor
  · rintro ⟨s', h⟩ before a after s₁ rfl hbefore
    obtain ⟨s₂, hbefore', hrest⟩ := (Served.append_iff hturn).1 h
    obtain ⟨n, hn⟩ := hbefore
    obtain ⟨m, hm⟩ := hbefore'
    -- those before it leave one state
    have hn' := hturn.loop (le_max_left n m) hn
    have hm' := hturn.loop (le_max_right n m) hm
    rw [hn'] at hm'
    cases hm'
    obtain ⟨k, s₃, ha, -⟩ := (Served.cons_iff hturn).1 hrest
    exact ⟨k, s₃, ha⟩
  · intro h
    induction as generalizing s with
    | nil => exact ⟨s, Served.nil_iff.2 rfl⟩
    | cons a as ih =>
      obtain ⟨n, s₁, ha⟩ := h [] a as s rfl (Served.nil_iff.2 rfl)
      obtain ⟨s', hrest⟩ := ih fun before b after s₂ heq hbefore =>
        h (a :: before) b after s₂ (by rw [heq]; rfl)
          ((Served.cons_iff hturn).2 ⟨n, s₁, ha, hbefore⟩)
      exact ⟨s', (Served.cons_iff hturn).2 ⟨n, s₁, ha, hrest⟩⟩

end Turns
