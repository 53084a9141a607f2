import Mathlib.Data.Nat.Notation
import Mathlib.Tactic.Common

/-!
# Frames in a stream of blocks

A receiver pulls blocks from a source and takes everything up to the first short
block for one frame.

* `Frame.content`: what a frame carries is a prefix of what the source holds.
* `Frame.preserve`: what no pull breaks still holds after a frame.
* `Frame.map`: a change of the source that no pull notices leaves its frames alone.
-/

namespace Framing

variable {σ β α : Type*} {next : σ → Option (β × σ)} {short : β → Prop}

/-- **The next frame of a source**: the long blocks `g`, then the first short
block `x`, leaving the source at `t`. -/
inductive Frame (next : σ → Option (β × σ)) (short : β → Prop) : σ → List β → β → σ → Prop
  | last {s x t} : next s = some (x, t) → short x → Frame next short s [] x t
  | more {s b u g x t} : next s = some (b, u) → ¬ short b → Frame next short u g x t →
      Frame next short s (b :: g) x t

theorem Frame.short_last {s t : σ} {g : List β} {x : β} (h : Frame next short s g x t) :
    short x := by
  induction h with
  | last _ hx => exact hx
  | more _ _ _ ih => exact ih

theorem Frame.long {s t : σ} {g : List β} {x : β} (h : Frame next short s g x t) :
    ∀ b ∈ g, ¬ short b := by
  induction h with
  | last _ _ => simp
  | more _ hb _ ih =>
    intro c hc
    rcases List.mem_cons.1 hc with rfl | hc
    · exact hb
    · exact ih c hc

/-- **Nothing is lost.** If `rest` is what a source still holds and a block carries
`val` of it, then a frame carries the front of `rest`. -/
theorem Frame.content {rest : σ → List α} {val : β → List α}
    (hrest : ∀ s b t, next s = some (b, t) → rest s = val b ++ rest t) {s t : σ} {g : List β}
    {x : β} (h : Frame next short s g x t) : rest s = g.flatMap val ++ val x ++ rest t := by
  induction h with
  | last hn _ => simp [hrest _ _ _ hn]
  | more hn _ _ ih => rw [hrest _ _ _ hn, ih]; simp

/-- A property of the source that no pull breaks holds after a frame. -/
theorem Frame.preserve {P : σ → Prop} (hP : ∀ s b t, next s = some (b, t) → P s → P t) {s t : σ}
    {g : List β} {x : β} (h : Frame next short s g x t) (hs : P s) : P t := by
  induction h with
  | last hn _ => exact hP _ _ _ hn hs
  | more hn _ _ ih => exact ih (hP _ _ _ hn hs)

theorem Frame.map {f : σ → σ} (hf : ∀ s b t, next s = some (b, t) → next (f s) = some (b, f t))
    {s t : σ} {g : List β} {x : β} (h : Frame next short s g x t) :
    Frame next short (f s) g x (f t) := by
  induction h with
  | last hn hx => exact .last (hf _ _ _ hn) hx
  | more hn hb _ ih => exact .more (hf _ _ _ hn) hb ih

end Framing
