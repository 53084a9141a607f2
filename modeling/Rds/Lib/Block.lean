import Mathlib.Data.Nat.Notation
import Mathlib.Tactic.Common

/-!
# Blocks of memory

A block is the list of its cells, and a cell that has not been set holds nothing. Storing behind
the end is an error.

* `StartsWith.store`: what is stored behind a front lengthens the front.
* `StartsWith.resize`: a block that is resized keeps what fits.
-/

namespace Memory

variable {α : Type}

/-- A block. -/
abbrev Block (α : Type) := List (Option α)

namespace Block

/-- A block with other many cells. The new ones are not set. -/
def resize (block : Block α) (n : ℕ) : Block α :=
  block.take n ++ List.replicate (n - block.length) none

/-- Storing one value. -/
def store (block : Block α) (i : ℕ) (a : α) : Option (Block α) :=
  if i < block.length then some (block.set i (some a)) else none

/-- The front of a block has been set to these values. -/
def StartsWith (block : Block α) (s : List α) : Prop := s.map some <+: block

variable {block : Block α} {s : List α} {n i : ℕ}

@[simp] theorem length_resize (block : Block α) (n : ℕ) : (block.resize n).length = n := by
  unfold resize
  rw [List.length_append, List.length_take, List.length_replicate]
  omega

namespace StartsWith

theorem nil (block : Block α) : block.StartsWith [] := List.nil_prefix

theorem length_le (h : block.StartsWith s) : s.length ≤ block.length := by
  have hle := List.IsPrefix.length_le h
  rwa [List.length_map] at hle

theorem take (h : block.StartsWith s) (i : ℕ) : block.StartsWith (s.take i) := by
  unfold StartsWith
  rw [List.map_take]
  exact (List.take_prefix i _).trans h

theorem getElem? (h : block.StartsWith s) (hi : i < s.length) : block[i]? = some s[i]? := by
  obtain ⟨rest, rfl⟩ := h
  rw [List.getElem?_append_left (by rwa [List.length_map]), List.getElem?_map,
    List.getElem?_eq_getElem hi]
  rfl

/-- **A value behind the front.** -/
theorem store (h : block.StartsWith s) (hlt : s.length < block.length) (a : α) :
    ∃ block', block.store s.length a = some block' ∧ block'.length = block.length ∧
      block'.StartsWith (s ++ [a]) := by
  refine ⟨block.set s.length (some a), if_pos hlt, List.length_set, ?_⟩
  obtain ⟨rest, rfl⟩ := h
  cases rest with
  | nil => simp at hlt
  | cons c rest =>
    refine ⟨rest, ?_⟩
    have hlen : (s.map some).length ≤ s.length := by simp
    rw [List.set_append_right s.length (some a) hlen, List.length_map, Nat.sub_self,
      List.set_cons_zero]
    simp

/-- A front that fits. -/
theorem resize (h : block.StartsWith s) (hle : s.length ≤ n) : (block.resize n).StartsWith s := by
  unfold Block.resize
  have htake : s.map some <+: block.take n :=
    List.prefix_take_iff.2 ⟨h, by rwa [List.length_map]⟩
  exact htake.trans (List.prefix_append _ _)

end StartsWith

end Block

end Memory
