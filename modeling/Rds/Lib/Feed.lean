import Mathlib.Logic.Relation
import Mathlib.Tactic.Common

/-!
# Loops fed piece by piece

A loop takes turns until one of them is the last. Its input may be there at once, or come piece by
piece, with the loop run on what is there each time.

* `Oblivious`: a turn that returns does the same with more input behind.
* `Comes`: where a loop comes to, and whether its last turn was taken.
* `Oblivious.comes`: **what comes piece by piece may as well be there at once**.
-/

namespace Feed

open Relation

variable {ε σ I : Type} {turn : σ → Except ε (Bool × σ)} {more : I → σ → σ} {s m s' : σ} {b : Bool}

/-- A turn that is not the last. -/
def Goes (turn : σ → Except ε (Bool × σ)) (s s' : σ) : Prop := turn s = .ok (false, s')

/-- **Where the loop comes to**, with its last turn (`true`) or before it. -/
def Comes (turn : σ → Except ε (Bool × σ)) (s : σ) (b : Bool) (s' : σ) : Prop :=
  match b with
  | false => ReflTransGen (Goes turn) s s'
  | true => ∃ m, ReflTransGen (Goes turn) s m ∧ turn m = .ok (true, s')

theorem Comes.refl (s : σ) : Comes turn s false s := ReflTransGen.refl

theorem Comes.of_turn (h : turn s = .ok (b, s')) : Comes turn s b s' := by
  cases b with
  | false => exact ReflTransGen.single h
  | true => exact ⟨s, ReflTransGen.refl, h⟩

theorem Comes.trans (h : Comes turn s false m) (h' : Comes turn m b s') : Comes turn s b s' := by
  cases b with
  | false => exact ReflTransGen.trans h h'
  | true =>
    obtain ⟨n, hgo, hlast⟩ := h'
    exact ⟨n, ReflTransGen.trans h hgo, hlast⟩

/-- **A turn that more input does not disturb**: where it returns, it leaves what is behind its
input behind what it leaves. -/
def Oblivious (more : I → σ → σ) (turn : σ → Except ε (Bool × σ)) : Prop :=
  ∀ i s b s', turn s = .ok (b, s') → turn (more i s) = .ok (b, more i s')

/-- **More input for a loop that waits**: it comes to where it came, with the rest behind. -/
theorem Oblivious.comes (hturn : Oblivious more turn) (i : I) (h : Comes turn s b s') :
    Comes turn (more i s) b (more i s') := by
  have hgoes : ∀ {s s' : σ}, ReflTransGen (Goes turn) s s' →
      ReflTransGen (Goes turn) (more i s) (more i s') :=
    fun h => h.lift (more i) fun s s' hs => hturn i s false s' hs
  cases b with
  | false => exact hgoes h
  | true =>
    obtain ⟨n, hgo, hlast⟩ := h
    exact ⟨more i n, hgoes hgo, hturn i n true s' hlast⟩

end Feed
