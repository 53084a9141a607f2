import Mathlib.Data.Nat.Notation
import Mathlib.Tactic.Common

/-!
# Scanning a text by lines

A scanner goes from one line start to the next. At each it takes a window of characters, as many
as the first of them asks for, and then the rest of the line up to its newline. The window is
taken whatever it holds: one that holds a newline runs into the next line, which is then no line
of its own.

* `nextLine?_append`: a line that is complete is not changed by what follows it.
* `Reading.run_append`: **a text in two parts**. What the second part is read as depends on the
  place in it where the first one leaves the scanner.
* `Reading.run_skip`: a line that says nothing only moves that place.
* `place_append_line_iff`: when it does not even do that.
* `resume_separates`: two places are told apart by what follows.
-/

namespace LineScan

variable {α σ : Type} [DecidableEq α]

/-- What ends a line, and how many characters are taken at the start of one. -/
structure Scanner (α : Type) where
  newline : α
  window : α → ℕ
  window_pos : ∀ b, 0 < window b

namespace Scanner

variable (S : Scanner α) {b : α} {s t u line : List α} {j : ℕ}

/-! ## The next line -/

/-- What follows the first newline. -/
def afterNewline : List α → Option (List α)
  | [] => none
  | b :: s => if b = S.newline then some s else afterNewline s

variable {S}

theorem afterNewline_none_iff : S.afterNewline s = none ↔ S.newline ∉ s := by
  induction s with
  | nil => simp [afterNewline]
  | cons b s ih =>
    rw [afterNewline, List.mem_cons, not_or]
    by_cases hb : b = S.newline
    · simp [hb]
    · rw [if_neg hb, ih]
      exact ⟨fun h => ⟨Ne.symm hb, h⟩, And.right⟩

theorem afterNewline_split (h : S.afterNewline s = some t) : ∃ c, s = c ++ S.newline :: t := by
  induction s with
  | nil => cases h
  | cons b s ih =>
    rw [afterNewline] at h
    by_cases hb : b = S.newline
    · rw [if_pos hb] at h
      exact ⟨[], by rw [hb, Option.some.inj h, List.nil_append]⟩
    · rw [if_neg hb] at h
      obtain ⟨c, hc⟩ := ih h
      exact ⟨b :: c, by rw [hc, List.cons_append]⟩

theorem afterNewline_append (h : S.afterNewline s = some t) (u : List α) :
    S.afterNewline (s ++ u) = some (t ++ u) := by
  induction s with
  | nil => cases h
  | cons b s ih =>
    rw [afterNewline] at h
    rw [List.cons_append, afterNewline]
    by_cases hb : b = S.newline
    · rw [if_pos hb] at h ⊢
      rw [Option.some.inj h]
    · rw [if_neg hb] at h ⊢
      exact ih h

theorem afterNewline_append_none (h : S.newline ∉ s) (u : List α) :
    S.afterNewline (s ++ u) = S.afterNewline u := by
  induction s with
  | nil => rfl
  | cons b s ih =>
    rw [List.mem_cons, not_or] at h
    rw [List.cons_append, afterNewline, if_neg (Ne.symm h.1), ih h.2]

theorem afterNewline_line (h : S.newline ∉ s) (t : List α) :
    S.afterNewline (s ++ S.newline :: t) = some t := by
  rw [afterNewline_append_none h, afterNewline, if_pos rfl]

variable (S)

/-- What follows the line that starts here, if the text holds its end. -/
def nextLine? : List α → Option (List α)
  | [] => none
  | b :: s => S.afterNewline ((b :: s).drop (S.window b))

/-- Where the next line starts, or the end of the text. -/
def next (s : List α) : List α := (S.nextLine? s).getD []

variable {S}

theorem nextLine?_split (h : S.nextLine? s = some t) : ∃ c, s = c ++ S.newline :: t := by
  cases s with
  | nil => cases h
  | cons b s =>
    obtain ⟨c, hc⟩ := afterNewline_split h
    refine ⟨(b :: s).take (S.window b) ++ c, ?_⟩
    rw [List.append_assoc, ← hc, List.take_append_drop]

theorem length_next_lt (hs : s ≠ []) : (S.next s).length < s.length := by
  unfold next
  cases h : S.nextLine? s with
  | none => exact List.length_pos_iff.2 hs
  | some t =>
    obtain ⟨c, hc⟩ := nextLine?_split h
    rw [hc, List.length_append, List.length_cons, Option.getD_some]
    omega

theorem length_nextLine?_lt (h : S.nextLine? s = some t) : t.length < s.length := by
  obtain ⟨c, hc⟩ := nextLine?_split h
  rw [hc, List.length_append, List.length_cons]
  omega

/-- **A line that is complete** is not changed by what follows it. -/
theorem nextLine?_append (h : S.nextLine? s = some t) (u : List α) :
    S.nextLine? (s ++ u) = some (t ++ u) := by
  cases s with
  | nil => cases h
  | cons b s =>
    have hdrop : S.window b - (b :: s).length = 0 := by
      by_contra hlt
      rw [nextLine?, List.drop_of_length_le (by omega)] at h
      cases h
    rw [nextLine?] at h
    rw [List.cons_append, nextLine?, ← List.cons_append, List.drop_append, hdrop, List.drop_zero]
    exact afterNewline_append h u

/-- A line that is not complete goes on in what follows. -/
theorem nextLine?_append_none (h : S.nextLine? (b :: s) = none) (u : List α) :
    S.nextLine? (b :: s ++ u) = S.afterNewline (u.drop (S.window b - (b :: s).length)) := by
  rw [nextLine?, afterNewline_none_iff] at h
  rw [List.cons_append, nextLine?, ← List.cons_append, List.drop_append,
    afterNewline_append_none h]

/-! ## Places -/

variable (S)

/-- The place a text leaves the scanner at: a line start, or within a line with so many
characters of its window to come. -/
def place (s : List α) : Option ℕ :=
  match s with
  | [] => none
  | b :: s =>
    match _h : S.nextLine? (b :: s) with
    | some t => place t
    | none => some (S.window b - (b :: s).length)
termination_by s.length
decreasing_by exact length_nextLine?_lt _h

/-- Where the next line starts in what follows a place. -/
def resume : Option ℕ → List α → List α
  | none, u => u
  | some j, u => (S.afterNewline (u.drop j)).getD []

@[simp] theorem resume_none (u : List α) : S.resume none u = u := rfl

theorem resume_some (j : ℕ) (u : List α) :
    S.resume (some j) u = (S.afterNewline (u.drop j)).getD [] := rfl

/-- A line that has room for its window. -/
def Fits (line : List α) : Prop := ∃ b s, line = b :: s ∧ S.window b ≤ line.length

variable {S}

@[simp] theorem place_nil : S.place [] = none := by
  rw [place]

theorem place_of_some (h : S.nextLine? s = some t) : S.place s = S.place t := by
  cases s with
  | nil => cases h
  | cons b s =>
    rw [place]
    split
    · rename_i t' h'
      rw [h] at h'
      rw [Option.some.inj h']
    · rename_i h'
      rw [h] at h'
      cases h'

theorem place_of_none (h : S.nextLine? (b :: s) = none) :
    S.place (b :: s) = some (S.window b - (b :: s).length) := by
  rw [place]
  split
  · rename_i t' h'
    rw [h] at h'
    cases h'
  · rfl

/-- The place behind a second part is that of the part itself, or it is found behind the line
the first part ends in. -/
theorem place_append (s u : List α) : S.place (s ++ u) =
    match S.place s with
    | none => S.place u
    | some j =>
      match S.afterNewline (u.drop j) with
      | some t => S.place t
      | none => some (j - u.length) := by
  induction hn : s.length using Nat.strongRecOn generalizing s with
  | ind n ih =>
    cases s with
    | nil => rw [place_nil, List.nil_append]
    | cons b s =>
      cases h : S.nextLine? (b :: s) with
      | some t =>
        have hlt := length_nextLine?_lt h
        rw [place_of_some h, place_of_some (nextLine?_append h u), ih _ (hn ▸ hlt) t rfl]
      | none =>
        rw [place_of_none h]
        simp only
        cases h' : S.afterNewline (u.drop (S.window b - (b :: s).length)) with
        | some t =>
          rw [place_of_some (t := t) (by rw [nextLine?_append_none h, h'])]
        | none =>
          have hnone : S.nextLine? (b :: (s ++ u)) = none := by
            rw [← List.cons_append, nextLine?_append_none h, h']
          rw [List.cons_append, place_of_none hnone]
          simp only [List.length_cons, List.length_append, Option.some.injEq]
          omega

/-- Where a line on its own leaves the scanner. -/
theorem place_line_iff (hline : S.newline ∉ line) :
    S.place (line ++ [S.newline]) = none ↔ S.Fits line := by
  unfold Fits
  cases line with
  | nil =>
    have hpos : 1 ≤ S.window S.newline := S.window_pos S.newline
    have hnone : S.nextLine? [S.newline] = none := by
      rw [nextLine?, List.drop_of_length_le (by simpa using hpos)]
      rfl
    rw [List.nil_append, place_of_none hnone]
    simp
  | cons b s =>
    by_cases hfits : S.window b ≤ (b :: s).length
    · have hsome : S.nextLine? (b :: s ++ [S.newline]) = some [] := by
        rw [List.cons_append, nextLine?, ← List.cons_append, List.drop_append_of_le_length hfits]
        exact afterNewline_line (fun h => hline (List.mem_of_mem_drop h)) []
      rw [place_of_some hsome, place_nil]
      exact iff_of_true rfl ⟨b, s, rfl, hfits⟩
    · have hnone : S.nextLine? (b :: (s ++ [S.newline])) = none := by
        rw [nextLine?, List.drop_of_length_le]
        · rfl
        · simp only [List.length_cons, List.length_append, List.length_nil] at hfits ⊢
          omega
      rw [List.cons_append, place_of_none hnone]
      refine iff_of_false (by simp) ?_
      rintro ⟨b', s', heq, hle⟩
      cases heq
      exact hfits hle

/-- **A line that moves no place**: the scanner was at its start, and it has room for its
window. -/
theorem place_append_line_iff (hline : S.newline ∉ line) (s : List α) :
    S.place (s ++ (line ++ [S.newline])) = S.place s ↔ S.place s = none ∧ S.Fits line := by
  rw [place_append]
  cases hs : S.place s with
  | none =>
    simp only [true_and]
    exact place_line_iff hline
  | some j =>
    refine iff_of_false ?_ (by simp)
    simp only
    by_cases hj : j ≤ line.length
    · rw [List.drop_append_of_le_length hj,
        afterNewline_line (fun h => hline (List.mem_of_mem_drop h))]
      simp
    · rw [List.drop_of_length_le]
      · simp only [afterNewline, List.length_append, List.length_singleton, Option.some.injEq]
        omega
      · rw [List.length_append, List.length_singleton]
        omega

/-- **Two places are told apart** by what follows: from one of them a line is the next one, and
from the other it is not. -/
theorem resume_separates {p q : Option ℕ} (hpq : p ≠ q) (hline : S.newline ∉ line) :
    ∃ u, (∀ b ∈ u, b = S.newline ∨ b ∈ line) ∧
      (S.resume p u = line ∧ S.resume q u = [] ∨ S.resume p u = [] ∧ S.resume q u = line) := by
  have hstart : ∀ i, S.resume (some i) line = [] := by
    intro i
    rw [resume_some, afterNewline_none_iff.2 fun h => hline (List.mem_of_mem_drop h)]
    rfl
  have hwithin : ∀ i k, i < k →
      S.resume (some i) (List.replicate i S.newline ++ S.newline :: line) = line ∧
        S.resume (some k) (List.replicate i S.newline ++ S.newline :: line) = [] := by
    intro i k hik
    have hdrop : k - i = (k - i - 1) + 1 := by omega
    refine ⟨?_, ?_⟩
    · rw [resume_some, List.drop_left' List.length_replicate, afterNewline, if_pos rfl]
      rfl
    · rw [resume_some, List.drop_append, List.length_replicate, hdrop, List.drop_succ_cons,
        List.drop_of_length_le (by rw [List.length_replicate]; omega), List.nil_append,
        afterNewline_none_iff.2 fun h => hline (List.mem_of_mem_drop h)]
      rfl
  have hchars : ∀ i, ∀ b ∈ List.replicate i S.newline ++ S.newline :: line,
      b = S.newline ∨ b ∈ line := by
    intro i b hb
    rw [List.mem_append, List.mem_cons] at hb
    exact hb.elim (fun h => Or.inl (List.eq_of_mem_replicate h)) id
  cases p with
  | none =>
    cases q with
    | none => exact absurd rfl hpq
    | some j => exact ⟨line, fun b hb => Or.inr hb, Or.inl ⟨rfl, hstart j⟩⟩
  | some i =>
    cases q with
    | none => exact ⟨line, fun b hb => Or.inr hb, Or.inr ⟨hstart i, rfl⟩⟩
    | some j =>
      rcases Nat.lt_or_gt_of_ne (fun h => hpq (congrArg some h)) with hij | hji
      · exact ⟨_, hchars i, Or.inl (hwithin i j hij)⟩
      · exact ⟨_, hchars j, Or.inr (hwithin j i hji).symm⟩

/-! ## Whole lines -/

variable (S)

/-- A text that ends with a newline, if it is not empty. -/
def Whole (s : List α) : Prop := ∀ b, s.getLast? = some b → b = S.newline

variable {S}

omit [DecidableEq α] in
theorem whole_append_line (s line : List α) : S.Whole (s ++ (line ++ [S.newline])) := by
  intro b hb
  rw [← List.append_assoc, List.getLast?_append, List.getLast?_singleton, Option.some_or] at hb
  exact (Option.some.inj hb).symm

theorem Whole.nextLine (h : S.Whole s) (ht : S.nextLine? s = some t) : S.Whole t := by
  intro b hb
  obtain ⟨c, hc⟩ := nextLine?_split ht
  apply h
  rw [hc, ← List.singleton_append, ← List.append_assoc, List.getLast?_append, hb, Option.some_or]

/-- A line that is not complete, in whole lines, has a newline in its window. -/
theorem Whole.newline_mem (h : S.Whole (b :: s)) (hnone : S.nextLine? (b :: s) = none) :
    S.newline ∈ (b :: s).take (S.window b) := by
  rw [nextLine?, afterNewline_none_iff] at hnone
  have hlast := h _ (List.getLast?_eq_some_getLast (List.cons_ne_nil b s))
  have hmem : S.newline ∈ b :: s := hlast ▸ List.getLast_mem (List.cons_ne_nil b s)
  rw [← List.take_append_drop (S.window b) (b :: s), List.mem_append] at hmem
  exact hmem.resolve_right hnone

end Scanner

/-! ## Readings -/

/-- What the lines say, one at a time: what is said at a line start depends on that line only,
and a window with a newline in it says nothing. -/
structure Reading (S : Scanner α) (σ : Type) where
  effect : List α → σ → σ
  complete : ∀ {s t : List α} (u : List α), S.nextLine? s = some t → effect (s ++ u) = effect s
  overrun : ∀ {b : α} {s : List α} (r : σ),
    S.newline ∈ (b :: s).take (S.window b) → effect (b :: s) r = r

namespace Reading

variable {S : Scanner α} (R : Reading S σ) {s line : List α}

/-- What a text says, behind what is known already. -/
def run (s : List α) (r : σ) : σ :=
  match s with
  | [] => r
  | b :: s => run (S.next (b :: s)) (R.effect (b :: s) r)
termination_by s.length
decreasing_by exact Scanner.length_next_lt (List.cons_ne_nil b s)

@[simp] theorem run_nil (r : σ) : R.run [] r = r := by
  rw [run]

theorem run_cons (b : α) (s : List α) (r : σ) :
    R.run (b :: s) r = R.run (S.next (b :: s)) (R.effect (b :: s) r) := by
  rw [run]

/-- **A text in two parts**: the second one is read from the place on where the first leaves
the scanner. -/
theorem run_append (hs : S.Whole s) (u : List α) (r : σ) :
    R.run (s ++ u) r = R.run (S.resume (S.place s) u) (R.run s r) := by
  induction hn : s.length using Nat.strongRecOn generalizing s r with
  | ind n ih =>
    cases s with
    | nil => rw [Scanner.place_nil, run_nil, List.nil_append]; rfl
    | cons b s =>
      rw [List.cons_append, run_cons, run_cons, ← List.cons_append]
      cases h : S.nextLine? (b :: s) with
      | some t =>
        have hlt := Scanner.length_nextLine?_lt h
        unfold Scanner.next
        rw [Scanner.nextLine?_append h, h, R.complete u h, Scanner.place_of_some h]
        exact ih _ (hn ▸ hlt) (hs.nextLine h) _ rfl
      | none =>
        have hmem := hs.newline_mem h
        have hmem' : S.newline ∈ (b :: (s ++ u)).take (S.window b) := by
          rw [← List.cons_append, List.take_append]
          exact List.mem_append_left _ hmem
        unfold Scanner.next
        rw [Scanner.nextLine?_append_none h, h, R.overrun r hmem, List.cons_append,
          R.overrun r hmem', Scanner.place_of_none h, Option.getD_none, run_nil]
        rfl

/-- **A line that says nothing** moves the place where the rest is read from, and no more. -/
theorem run_skip (hs : S.Whole s) (hline : S.newline ∉ line)
    (hsilent : ∀ r, R.effect (line ++ [S.newline]) r = r) (u : List α) (r : σ) :
    R.run (s ++ (line ++ S.newline :: u)) r =
      R.run (S.resume (S.place (s ++ (line ++ [S.newline]))) u) (R.run s r) := by
  have hsplit : s ++ (line ++ S.newline :: u) = s ++ (line ++ [S.newline]) ++ u := by simp
  have hend : ∀ j, S.afterNewline ((line ++ [S.newline]).drop j) = some [] ∨
      S.afterNewline ((line ++ [S.newline]).drop j) = none := by
    intro j
    by_cases hj : j ≤ line.length
    · rw [List.drop_append_of_le_length hj]
      exact Or.inl (Scanner.afterNewline_line (fun h => hline (List.mem_of_mem_drop h)) [])
    · rw [List.drop_of_length_le (by rw [List.length_append, List.length_singleton]; omega)]
      exact Or.inr rfl
  have hnothing : R.run (s ++ (line ++ [S.newline])) r = R.run s r := by
    rw [run_append R hs]
    cases S.place s with
    | some j =>
      rw [Scanner.resume_some]
      rcases hend j with h | h <;> rw [h] <;> exact run_nil R _
    | none =>
      rw [Scanner.resume_none]
      cases hl : line ++ [S.newline] with
      | nil => rw [run_nil]
      | cons b t =>
        rw [run_cons, ← hl, hsilent]
        have hnext : S.next (line ++ [S.newline]) = [] := by
          unfold Scanner.next
          rw [hl, Scanner.nextLine?, ← hl]
          rcases hend (S.window b) with h | h <;> rw [h] <;> rfl
        rw [hnext, run_nil]
  rw [hsplit, run_append R (Scanner.whole_append_line s line), hnothing]

end Reading

end LineScan
