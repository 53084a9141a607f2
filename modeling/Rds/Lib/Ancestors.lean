import Mathlib.Logic.Relation
import Mathlib.Logic.Relator

/-!
# The nearest ancestor of a kind

`R a b` says that `a` is directly above `b`, and nothing is directly below two
(`Relator.LeftUnique`). What is above an element is then a line, and a walk along it finds the
nearest element of a kind.

* `eq_or_above`: what is above an element is what is directly above it, or above that.
* `Nearest.of_above`, `Nearest.skip`: the two turns of a walk.
-/

namespace Ancestors

open Relation

variable {α : Type*} {R : α → α → Prop} {p : α → Prop} {a b x y : α}

/-- **The nearest element of a kind above `x`**: every other one is above it. -/
structure Nearest (R : α → α → Prop) (p : α → Prop) (x a : α) : Prop where
  kind : p a
  above : TransGen R a x
  lowest : ∀ b, p b → TransGen R b x → ReflTransGen R b a

theorem eq_or_above (hR : Relator.LeftUnique R) (hy : R y x) (h : TransGen R a x) :
    a = y ∨ TransGen R a y := by
  obtain ⟨z, haz, hz⟩ := TransGen.tail'_iff.1 h
  obtain rfl := hR hz hy
  exact reflTransGen_iff_eq_or_transGen.1 haz |>.imp_left Eq.symm

/-- The walk stops at once. -/
theorem Nearest.of_above (hR : Relator.LeftUnique R) (hax : R a x) (ha : p a) :
    Nearest R p x a where
  kind := ha
  above := .single hax
  lowest b _ hb := by
    rcases eq_or_above hR hax hb with rfl | hab
    · exact .refl
    · exact hab.to_reflTransGen

/-- The walk goes on. -/
theorem Nearest.skip (hR : Relator.LeftUnique R) (hyx : R y x) (hy : ¬ p y)
    (h : Nearest R p y a) : Nearest R p x a where
  kind := h.kind
  above := h.above.tail hyx
  lowest b hpb hb := by
    rcases eq_or_above hR hyx hb with rfl | hby
    · exact absurd hpb hy
    · exact h.lowest b hpb hby

end Ancestors
