import Rds.Proof.CfgLines

/-!
# Looking for a name

The writer goes from line start to line start, as the readers do, and looks at as many characters
of a line as the name and its `=` have, if the first of them is that of the name.

* `writeLoop_behind`: a line that does not set the name is passed over.
* `writeLoop_setsName`: **the name is found** exactly if a line that the writer comes to sets it.
-/

namespace Rds

variable {file name : List Byte} {b : Byte} {n size : ℕ}

/-! ## The lines the writer comes to -/

/-- Where the writer goes on behind the line that starts here. If the line starts like the name,
as many characters are taken as the name and its `=` have, newlines too. -/
def behind (name : List Byte) : List Byte → List Byte
  | [] => []
  | b :: file =>
    if b = 255 then []
    else if b = name.headD 0 then
      match file.drop (name.length - 1) with
      | [] => []
      | c :: rest => if c = 255 then [] else skipLine rest
    else skipLine file

/-- The line that starts here sets the name. -/
def Starts (name file : List Byte) : Prop := name.headD 0 ≠ 255 ∧ name ++ [equals] <+: file

/-- **A line that the writer comes to sets the name.** -/
inductive SetsName (name : List Byte) : List Byte → Prop
  | here {file : List Byte} : Starts name file → SetsName name file
  | later {b : Byte} {file : List Byte} : SetsName name (behind name (b :: file)) →
    SetsName name (b :: file)

theorem not_setsName_nil (name : List Byte) : ¬ SetsName name [] := by
  rintro ⟨-, hstarts⟩
  have hlen := hstarts.length_le
  simp at hlen

/-- A line that does not set the name is passed over. -/
theorem setsName_later (h : ¬ Starts name (b :: file)) :
    SetsName name (b :: file) ↔ SetsName name (behind name (b :: file)) := by
  constructor
  · intro hsets
    cases hsets with
    | here hstarts => exact absurd hstarts h
    | later hlater => exact hlater
  · exact SetsName.later

theorem behind_eof (name file : List Byte) : behind name (255 :: file) = [] := by
  rw [behind, if_pos rfl]

theorem behind_other (hb : b ≠ name.headD 0) :
    behind name (b :: file) = if b = 255 then [] else skipLine file := by
  rw [behind, if_neg hb]

theorem behind_name (heof : b ≠ 255) (str : List Byte) :
    behind (b :: str) (b :: file) =
      match file.drop str.length with
      | [] => []
      | c :: rest => if c = 255 then [] else skipLine rest := by
  rw [behind, if_neg heof, List.headD_cons, if_pos rfl, List.length_cons, Nat.add_sub_cancel]

theorem length_behind_lt (name : List Byte) (b : Byte) (file : List Byte) :
    (behind name (b :: file)).length < (b :: file).length := by
  rw [behind, List.length_cons]
  split
  · exact Nat.succ_pos _
  split
  · have hdrop := List.length_drop (i := name.length - 1) (l := file)
    split
    · exact Nat.succ_pos _
    · rename_i c rest hrest
      rw [hrest, List.length_cons] at hdrop
      have hle := length_skipLine_le rest
      split
      · exact Nat.succ_pos _
      · omega
  · have hle := length_skipLine_le file
    omega

/-! ## The loop -/

/-- One turn of the loop of `write_to_cfg`. -/
theorem writeLoop_turn (state : FmState) (b : Byte) {state' : FmState} {actC : Option Byte}
    {file' : List Byte} {position position' : Option ℕ}
    (h : writeTurn name size state (toChar b) file position = (state', actC, file', position')) :
    writeLoop name size (n + 1) state (b :: file) position =
      if actC = none then .ok position' else writeLoop name size n state' file' position' := by
  rw [writeLoop]
  simp only [fgetc, h]

/-- It skips the lines that do not start like the name. -/
theorem writeLoop_skips (position : Option ℕ) :
    SkipsLines (fun n state file => writeLoop name size n state file position) (.ok position)
      (fun b => toChar b ≠ toChar (name.headD 0)) where
  nil n state hstate := by obtain rfl | rfl := hstate <;> rfl
  start n b file hb := by
    have hturn : writeTurn name size .e (toChar b) file position =
        (.c, toChar b, file, position) := by
      rw [writeTurn, if_neg hb]
    exact writeLoop_turn .e b hturn
  skip n b file := writeLoop_turn .c b rfl

theorem prefix_concat_iff {s rest : List Byte} {d e : Byte} (h : file.drop s.length = d :: rest) :
    s ++ [e] <+: file ↔ s <+: file ∧ d = e := by
  constructor
  · rintro ⟨u, rfl⟩
    rw [List.append_assoc, List.drop_left, List.singleton_append] at h
    exact ⟨⟨[e] ++ u, (List.append_assoc s [e] u).symm⟩, (List.cons.inj h).1.symm⟩
  · rintro ⟨⟨u, rfl⟩, rfl⟩
    rw [List.drop_left] at h
    exact ⟨rest, by rw [h, List.append_assoc, List.singleton_append]⟩

theorem exists_of_two_le (h : 2 ≤ name.length) : ∃ c x str, name = c :: x :: str := by
  match name, h with
  | c :: x :: str, _ => exact ⟨c, x, str, rfl⟩

/-- The turn on a line that starts like the name, behind its first character `c`. -/
theorem writeTurn_name (size : ℕ) (c x : Byte) (str file : List Byte) (position : Option ℕ) :
    writeTurn (c :: x :: str) size .v (fgetc file).1 (fgetc file).2 position =
      match file.drop (str.length + 1) with
      | [] => (.c, none, [], position)
      | d :: rest =>
        if x :: str ++ [equals] <+: file then (.e, some equals, rest, some (size - rest.length))
        else (.c, toChar d, rest, position) := by
  have hchars : ((c :: x :: str).drop 1).take ((c :: x :: str).length - 1) = x :: str := by simp
  have hfile := compareChars_drop str x file .v
  have hstate := compareChars_state str x file .v
  unfold writeTurn compare
  simp only [hchars]
  generalize compareChars (fgetc file).2 (x :: str) .v (fgetc file).1 = found at hfile hstate ⊢
  obtain ⟨file', state, actC⟩ := found
  simp only at hfile hstate ⊢
  rw [hfile]
  cases hdrop : file.drop (str.length + 1) with
  | nil => simp [fgetc, toChar, equals]
  | cons d rest =>
    have hlen : (x :: str).length ≤ file.length := by
      by_contra hlt
      rw [List.drop_of_length_le (by simpa using Nat.le_of_not_le hlt)] at hdrop
      cases hdrop
    have hstarts : x :: str ++ [equals] <+: file ↔ x :: str <+: file ∧ d = equals :=
      prefix_concat_iff hdrop
    rw [hstate (Or.inr hlen)]
    simp only [fgetc, ne_eq, toChar_injective.eq_iff, hstarts]
    by_cases hd : d = equals
    · by_cases hname : x :: str <+: file
      · simp [hd, hname, toChar, equals]
      · simp [hd, hname]
    · simp [hd]

/-- A line that sets the name is found. -/
theorem writeLoop_starts (size : ℕ) (position : Option ℕ) {u : List Byte} (hname : 2 ≤ name.length)
    (hfirst : name.headD 0 ≠ 255) (hn : (name ++ [equals] ++ u).length < n) :
    ∃ m q, u.length < m ∧ writeLoop name size n .e (name ++ [equals] ++ u) position =
      writeLoop name size m .e u (some q) := by
  obtain ⟨c, x, str, rfl⟩ := exists_of_two_le hname
  have hchar : toChar c = some c := toChar_ne_none hfirst
  have hlen : u.length + 2 < n := by
    simp only [List.length_append, List.length_cons] at hn
    omega
  obtain ⟨n, rfl⟩ : ∃ k, n = k + 2 := ⟨n - 2, by omega⟩
  have hc : writeTurn (c :: x :: str) size .e (toChar c) (x :: str ++ [equals] ++ u) position =
      (.v, toChar c, x :: str ++ [equals] ++ u, position) := by
    rw [writeTurn, List.headD_cons, if_pos rfl]
  have hdrop : (x :: str ++ [equals] ++ u).drop (str.length + 1) = equals :: u := by simp
  have hfound : writeTurn (c :: x :: str) size .v (fgetc (x :: str ++ [equals] ++ u)).1
      (fgetc (x :: str ++ [equals] ++ u)).2 position =
        (.e, some equals, u, some (size - u.length)) := by
    rw [writeTurn_name, hdrop]
    exact if_pos (List.prefix_append _ u)
  refine ⟨n, size - u.length, by omega, ?_⟩
  rw [List.cons_append, List.cons_append, writeLoop_turn .e c hc, hchar,
    if_neg (Option.some_ne_none c), writeLoop, hfound]
  rfl

/-- **A line that does not set the name** is passed over. -/
theorem writeLoop_behind (size : ℕ) (position : Option ℕ) (hname : 2 ≤ name.length)
    (h : ¬ Starts name (b :: file)) (hn : (b :: file).length < n) :
    ∃ m, (behind name (b :: file)).length < m ∧ writeLoop name size n .e (b :: file) position =
      writeLoop name size m .e (behind name (b :: file)) position := by
  obtain ⟨c, x, str, rfl⟩ := exists_of_two_le hname
  have hskips := @writeLoop_skips (c :: x :: str) size position
  have hend := hskips.nil 0 .e (Or.inl rfl)
  by_cases hb : b = c
  · -- the line starts like the name: the second turn takes the window
    subst hb
    obtain ⟨n, rfl⟩ := Nat.exists_eq_add_one_of_ne_zero (Nat.ne_zero_of_lt hn)
    have hlen : file.length < n := by simpa using hn
    have hc : writeTurn (b :: x :: str) size .e (toChar b) file position =
        (.v, toChar b, file, position) := by
      rw [writeTurn, List.headD_cons, if_pos rfl]
    rw [writeLoop_turn .e b hc]
    by_cases heof : b = 255
    · subst heof
      rw [behind_eof]
      exact ⟨1, Nat.one_pos, hend.symm⟩
    have hother : ¬ x :: str ++ [equals] <+: file := by
      intro hstarts
      exact h ⟨heof, List.cons_prefix_cons.2 ⟨rfl, hstarts⟩⟩
    obtain ⟨n, rfl⟩ := Nat.exists_eq_add_one_of_ne_zero (Nat.ne_zero_of_lt hlen)
    rw [behind_name heof, List.length_cons, toChar_ne_none heof, if_neg (Option.some_ne_none b),
      writeLoop, writeTurn_name]
    cases hdrop : file.drop (str.length + 1) with
    | nil => exact ⟨1, Nat.one_pos, hend.symm⟩
    | cons d rest =>
      -- `d` stands where the `=` should be; the line goes on behind it, even if it is a newline
      simp only [if_neg hother]
      by_cases hd : d = 255
      · rw [if_pos hd, hd]
        exact ⟨1, Nat.one_pos, hend.symm⟩
      · have hrest := congrArg List.length hdrop
        rw [List.length_drop, List.length_cons] at hrest
        have hlt : rest.length < n := by omega
        rw [if_neg hd, toChar_ne_none hd, if_neg (Option.some_ne_none d)]
        exact hskips.remainder rest hlt
  · have hhead : b ≠ (c :: x :: str).headD 0 := hb
    rw [behind_other hhead]
    exact hskips.first (toChar_injective.ne hhead) hn

/-- What is found stays found, and every line that sets the name is found. -/
theorem writeLoop_finds (size : ℕ) (hname : 2 ≤ name.length) : ∀ {n : ℕ} {file : List Byte}
    {position : Option ℕ}, file.length < n →
      ∃ q, writeLoop name size n .e file position = .ok q ∧
        (q.isSome ↔ position.isSome ∨ SetsName name file) := by
  intro n file position hn
  -- on the length of what is left: each line leaves less of it, found or not
  induction hlen : file.length using Nat.strongRecOn generalizing file n position with
  | ind k ih =>
    by_cases hstarts : Starts name file
    · obtain ⟨hfirst, u, rfl⟩ := hstarts
      obtain ⟨m, p, hm, heq⟩ := writeLoop_starts size position hname hfirst hn
      have hlt : u.length < k := by
        simp only [List.length_append, List.length_cons] at hlen
        omega
      obtain ⟨q, hq, hiff⟩ := @ih _ hlt m u (some p) hm rfl
      have hsome : q.isSome := hiff.2 (Or.inl rfl)
      exact ⟨q, heq.trans hq, iff_of_true hsome (Or.inr (.here ⟨hfirst, u, rfl⟩))⟩
    · cases file with
      | nil =>
        obtain ⟨n, rfl⟩ := Nat.exists_eq_add_one_of_ne_zero (Nat.ne_zero_of_lt hn)
        have hend := (@writeLoop_skips name size position).nil n .e (Or.inl rfl)
        exact ⟨position, hend, by simp [not_setsName_nil]⟩
      | cons b file =>
        obtain ⟨m, hm, heq⟩ := writeLoop_behind size position hname hstarts hn
        have hlt := length_behind_lt name b file
        obtain ⟨q, hq, hiff⟩ := ih _ (by omega) hm rfl
        exact ⟨q, heq.trans hq, by rw [hiff, setsName_later hstarts]⟩

/-- **The writer finds the name** exactly if a line that it comes to sets it. -/
theorem writeLoop_setsName (size : ℕ) (hname : 2 ≤ name.length) (hn : file.length < n) :
    ∃ position, writeLoop name size n .e file none = .ok position ∧
      (position.isSome ↔ SetsName name file) := by
  obtain ⟨position, hloop, hiff⟩ := @writeLoop_finds name size hname n file none hn
  exact ⟨position, hloop, by simpa using hiff⟩

end Rds
