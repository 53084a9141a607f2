import Mathlib.Data.Nat.Notation
import Mathlib.Logic.Function.Basic
import Mathlib.Tactic.Common

/-!
# A store that keeps what it got first

Each request names a key and brings what a fetch for it would give. A key that holds
something is left alone, any other one is filled by the fetch.

* `after_apply`: a key holds what it held, else what the first successful fetch gave.
* `after_eq_some_iff`: the same from an empty store, with the fetch named.
-/

namespace FillOnce

variable {K V : Type*} [DecidableEq K]

/-- One request served. -/
def serve (s : K → Option V) (r : K × Option V) : K → Option V :=
  match s r.1 with
  | some _ => s
  | none => Function.update s r.1 r.2

/-- The store after some requests. -/
def after (s : K → Option V) (rs : List (K × Option V)) : K → Option V := rs.foldl serve s

/-- What a request brings for a key. -/
def brings (k : K) (r : K × Option V) : Option V := if r.1 = k then r.2 else none

theorem serve_apply (s : K → Option V) (r : K × Option V) (k : K) :
    serve s r k = (s k).or (brings k r) := by
  unfold serve brings
  cases hr : s r.1 with
  | some v =>
    by_cases hk : r.1 = k
    · subst hk; simp [hr]
    · simp [hk]
  | none =>
    by_cases hk : r.1 = k
    · subst hk; simp [hr]
    · simp [hk, Function.update_of_ne (Ne.symm hk)]

theorem after_append (s : K → Option V) (rs ts : List (K × Option V)) :
    after s (rs ++ ts) = after (after s rs) ts := List.foldl_append

/-- **A key holds what it got first.** -/
theorem after_apply (s : K → Option V) (rs : List (K × Option V)) (k : K) :
    after s rs k = (s k).or (rs.findSome? (brings k)) := by
  induction rs generalizing s with
  | nil => simp [after]
  | cons r rs ih =>
    have hcons : after s (r :: rs) = after (serve s r) rs := rfl
    rw [hcons, ih, serve_apply, List.findSome?_cons, Option.or_assoc]
    cases brings k r <;> simp

theorem brings_eq_some_iff {k : K} {r : K × Option V} {v : V} :
    brings k r = some v ↔ r.1 = k ∧ r.2 = some v := by
  unfold brings
  by_cases hk : r.1 = k <;> simp [hk]

/-- **What a key holds**, from an empty store: what the first request that fetched something
for it brought. -/
theorem after_eq_some_iff {rs : List (K × Option V)} {k : K} {v : V} :
    after (fun _ => none) rs k = some v ↔ ∃ l r l', rs = l ++ r :: l' ∧ r.1 = k ∧ r.2 = some v ∧
      ∀ x ∈ l, x.1 = k → x.2 = none := by
  rw [after_apply, Option.none_or, List.findSome?_eq_some_iff]
  constructor
  · rintro ⟨l, r, l', hrs, hr, hl⟩
    obtain ⟨hk, hv⟩ := brings_eq_some_iff.1 hr
    refine ⟨l, r, l', hrs, hk, hv, fun x hx hxk => ?_⟩
    have hnone := hl x hx
    unfold brings at hnone
    rwa [if_pos hxk] at hnone
  · rintro ⟨l, r, l', hrs, hk, hv, hl⟩
    refine ⟨l, r, l', hrs, brings_eq_some_iff.2 ⟨hk, hv⟩, fun x hx => ?_⟩
    unfold brings
    by_cases hxk : x.1 = k
    · rw [if_pos hxk]; exact hl x hx hxk
    · rw [if_neg hxk]

end FillOnce
