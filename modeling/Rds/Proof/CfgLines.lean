import Rds.Spec.CfgParsing

/-!
# A configuration file as lines

A well-formed file is a list of lines, comments and settings, the last of which may lack its
newline. A comment may hold any byte but a newline, and one that holds the byte 255 ends the
reading.

* `SkipsLines.first`: a line that is ignored is skipped to its end.
* `compareChars_drop`: `compare` takes as many characters as it looks at, whatever they are.
* `fileReadValue_line`: a value is read up to the end of its line.
* `readLoop_line`: a line is read as what it says.
* `readCfg_bytes`: **`read_cfg` reads the lines in order**, up to the first that stops it.
-/

namespace Rds

/-- The settings. -/
inductive CfgKey
  | address | server | port | id
  deriving DecidableEq, Repr

def CfgKey.name : CfgKey → List Byte
  | address => text ['a', 'd', 'd', 'r', 'e', 's', 's']
  | server => text ['s', 'e', 'r', 'v', 'e', 'r']
  | port => text ['p', 'o', 'r', 't']
  | id => text ['i', 'd']

/-- A text a setting can have: no newline, NUL or byte 255. -/
structure CfgValue where
  bytes : List Byte
  no_newline : newline ∉ bytes
  no_nul : 0 ∉ bytes
  no_eof : 255 ∉ bytes
  deriving DecidableEq

/-- A line that starts like none of the settings. -/
structure CfgComment where
  first : Byte
  rest : List Byte
  ignored : first ∉ [97, 115, 112, 105, newline]
  no_newline : newline ∉ rest
  deriving DecidableEq

/-- A line without its newline. -/
inductive CfgLine
  | comment (c : CfgComment)
  | setting (key : CfgKey) (value : CfgValue)
  deriving DecidableEq

namespace CfgLine

def bytes : CfgLine → List Byte
  | comment c => c.first :: c.rest
  | setting key value => key.name ++ equals :: value.bytes

/-- A byte that is taken for the end of the file. -/
def Stops : CfgLine → Prop
  | comment c => 255 ∈ c.first :: c.rest
  | setting _ _ => False

instance : DecidablePred Stops
  | comment c => inferInstanceAs (Decidable (255 ∈ c.first :: c.rest))
  | setting _ _ => inferInstanceAs (Decidable False)

/-- What a line adds to the settings before it. A port is cut to four characters. -/
def apply (r : CfgParsed) : CfgLine → CfgParsed
  | comment _ => r
  | setting .address value => setAddress value.bytes r
  | setting .server value => setAddress value.bytes r
  | setting .port value => setCommPort (value.bytes.take 4) r
  | setting .id value => setClientId value.bytes r

end CfgLine

/-- A well-formed file: its lines, and what follows the last newline. -/
structure CfgText where
  lines : List CfgLine
  tail : Option CfgLine
  deriving DecidableEq

namespace CfgText

def all (f : CfgText) : List CfgLine := f.lines ++ f.tail.toList

def bytes (f : CfgText) : List Byte :=
  (f.lines.flatMap fun l => l.bytes ++ [newline]) ++ (f.tail.elim [] CfgLine.bytes)

/-- The lines before the first that stops the reading. -/
def seen (f : CfgText) : List CfgLine := f.all.takeWhile fun l => ¬ l.Stops

/-- A line stops the reading. -/
def Stopped (f : CfgText) : Prop := ∃ l ∈ f.all, l.Stops

/-- What the file says. -/
def settings (f : CfgText) : CfgParsed := f.seen.foldl CfgLine.apply ⟨none, none, none⟩

end CfgText

theorem CfgText.seen_nil : CfgText.seen ⟨[], none⟩ = [] := rfl

theorem CfgText.seen_tail (l : CfgLine) :
    CfgText.seen ⟨[], some l⟩ = if l.Stops then [] else [l] := by
  unfold seen all
  by_cases hl : l.Stops <;> simp [hl]

theorem CfgText.seen_cons (l : CfgLine) (lines : List CfgLine) (tail : Option CfgLine) :
    CfgText.seen ⟨l :: lines, tail⟩ = if l.Stops then [] else l :: CfgText.seen ⟨lines, tail⟩ := by
  unfold seen all
  by_cases hl : l.Stops <;> simp [hl]

theorem CfgText.bytes_tail (l : CfgLine) : CfgText.bytes ⟨[], some l⟩ = l.bytes ++ [] := by
  simp [bytes]

theorem CfgText.bytes_cons (l : CfgLine) (lines : List CfgLine) (tail : Option CfgLine) :
    CfgText.bytes ⟨l :: lines, tail⟩ = l.bytes ++ newline :: CfgText.bytes ⟨lines, tail⟩ := by
  simp [bytes]

/-! ## One line -/

/-- What follows a line: its newline and the rest of the file, or nothing. -/
inductive LineEnd : List Byte → List Byte → Prop
  | newline (rest : List Byte) : LineEnd (newline :: rest) rest
  | eof : LineEnd [] []

variable {ending rest s file : List Byte} {r : CfgParsed} {n : ℕ}

theorem LineEnd.length_le (h : LineEnd ending rest) : rest.length ≤ ending.length := by
  cases h with
  | newline rest => simp
  | eof => simp

/-- Every file starts with a line. -/
theorem exists_line (file : List Byte) :
    ∃ s ending rest, file = s ++ ending ∧ LineEnd ending rest ∧ newline ∉ s := by
  induction file with
  | nil => exact ⟨[], [], [], rfl, .eof, List.not_mem_nil⟩
  | cons b file ih =>
    obtain ⟨s, ending, rest, hfile, hend, hnew⟩ := ih
    by_cases hb : b = newline
    · exact ⟨[], b :: file, file, rfl, hb ▸ .newline file, List.not_mem_nil⟩
    · refine ⟨b :: s, ending, rest, by rw [hfile, List.cons_append], hend, ?_⟩
      rw [List.mem_cons, not_or]
      exact ⟨Ne.symm hb, hnew⟩

/-- The lines of a text file; the last one is empty if the file ends with a newline. -/
def fileLines (file : List Byte) : List (List Byte) := file.splitOn newline

theorem fileLines_cons (b : Byte) (file : List Byte) : fileLines (b :: file) =
    if b = newline then [] :: fileLines file else (fileLines file).modifyHead (List.cons b) := by
  unfold fileLines
  rw [List.splitOn_cons_eq_if_modifyHead]
  by_cases hb : b = newline <;> simp [hb]

theorem fileLines_ne_nil (file : List Byte) : fileLines file ≠ [] :=
  List.splitOn_ne_nil newline file

/-- The first line, and what follows it. -/
theorem fileLines_append (hnew : newline ∉ s) (rest : List Byte) :
    fileLines (s ++ newline :: rest) = s :: fileLines rest :=
  List.splitOn_append_cons_self_of_not_mem hnew rest

theorem fileLines_last (hnew : newline ∉ s) : fileLines s = [s] :=
  List.splitOn_eq_singleton hnew

/-- The lines before a newline, and those behind it. -/
theorem fileLines_newline (s rest : List Byte) :
    fileLines (s ++ newline :: rest) = fileLines s ++ fileLines rest :=
  List.splitOn_append_cons_self s rest

theorem toChar_ne_none {b : Byte} (h : b ≠ 255) : toChar b = some b := by
  simp [toChar, h]

theorem toChar_inj {b c : Byte} (hb : b ≠ 255) : toChar b = toChar c ↔ b = c := by
  unfold toChar
  by_cases hc : c = 255
  · simp [hb, hc]
  · simp [hb, hc]

theorem toChar_injective : Function.Injective toChar := by
  intro b c h
  by_cases hb : b = 255
  · by_contra hne
    have hc : c ≠ 255 := fun hc => hne (hb.trans hc.symm)
    rw [hb, toChar_ne_none hc] at h
    cases h
  · exact (toChar_inj hb).1 h

/-- **A loop that skips lines**: one of a reader in the states `e` and `c`, with the value `done`
at the end of the file. It skips the lines whose first byte is `ignored`. -/
structure SkipsLines {R : Type} (loop : ℕ → FmState → List Byte → R) (done : R)
    (ignored : Byte → Prop) : Prop where
  nil : ∀ n state, state = .e ∨ state = .c → loop (n + 1) state [] = done
  start : ∀ n b file, ignored b →
    loop (n + 1) .e (b :: file) = if toChar b = none then done else loop n .c file
  skip : ∀ n b file, loop (n + 1) .c (b :: file) =
    if toChar b = none then done
    else loop n (if toChar b = toChar newline then .e else .c) file

/-- What follows the first newline, or nothing where the byte 255 comes before it. -/
def skipLine : List Byte → List Byte
  | [] => []
  | b :: file => if b = 255 then [] else if b = newline then file else skipLine file

theorem length_skipLine_le (file : List Byte) : (skipLine file).length ≤ file.length := by
  induction file with
  | nil => exact le_refl _
  | cons b file ih =>
    rw [skipLine, List.length_cons]
    split
    · exact Nat.zero_le _
    · split
      · exact Nat.le_succ _
      · exact Nat.le_succ_of_le ih

theorem skipLine_line (hend : LineEnd ending rest) (hnew : newline ∉ s) (heof : 255 ∉ s) :
    skipLine (s ++ ending) = rest := by
  induction s with
  | nil => cases hend <;> rfl
  | cons b s ih =>
    rw [List.mem_cons, not_or] at hnew heof
    rw [List.cons_append, skipLine, if_neg (Ne.symm heof.1), if_neg (Ne.symm hnew.1)]
    exact ih hnew.2 heof.2

theorem skipLine_stop (hnew : newline ∉ s) (heof : 255 ∈ s) : skipLine (s ++ file) = [] := by
  induction s with
  | nil => cases heof
  | cons b s ih =>
    rw [List.mem_cons, not_or] at hnew
    rw [List.cons_append, skipLine, if_neg (Ne.symm hnew.1)]
    by_cases hb : b = 255
    · exact if_pos hb
    · rw [if_neg hb]
      exact ih hnew.2 ((List.mem_cons.1 heof).resolve_left (Ne.symm hb))

section
variable {R : Type} {loop : ℕ → FmState → List Byte → R} {done : R} {ignored : Byte → Prop}

/-- The rest of a line is skipped. -/
theorem SkipsLines.remainder (h : SkipsLines loop done ignored) (file : List Byte) :
    ∀ {n : ℕ}, file.length < n →
      ∃ m, (skipLine file).length < m ∧ loop n .c file = loop m .e (skipLine file) := by
  induction file with
  | nil =>
    intro n hn
    obtain ⟨n, rfl⟩ := Nat.exists_eq_add_one_of_ne_zero (Nat.ne_zero_of_lt hn)
    refine ⟨1, Nat.one_pos, ?_⟩
    rw [skipLine, h.nil n _ (Or.inr rfl), h.nil 0 _ (Or.inl rfl)]
  | cons b file ih =>
    intro n hn
    obtain ⟨n, rfl⟩ := Nat.exists_eq_add_one_of_ne_zero (Nat.ne_zero_of_lt hn)
    have hlt : file.length < n := by simpa using hn
    rw [skipLine, h.skip]
    by_cases heof : b = 255
    · refine ⟨1, by simp [heof], ?_⟩
      rw [if_pos heof, h.nil 0 _ (Or.inl rfl), heof]
      rfl
    · rw [if_neg heof, toChar_ne_none heof, if_neg (Option.some_ne_none b)]
      by_cases hb : b = newline
      · rw [if_pos hb, hb]
        exact ⟨n, hlt, rfl⟩
      · have hstay : some b ≠ toChar newline := by
          rw [← toChar_ne_none heof, toChar_injective.ne_iff]
          exact hb
        rw [if_neg hb, if_neg hstay]
        exact ih hlt

/-- A line is skipped that starts with an ignored byte. -/
theorem SkipsLines.first (h : SkipsLines loop done ignored) {b : Byte} (hb : ignored b)
    (hn : (b :: file).length < n) :
    ∃ m, (if b = 255 then [] else skipLine file).length < m ∧
      loop n .e (b :: file) = loop m .e (if b = 255 then [] else skipLine file) := by
  obtain ⟨n, rfl⟩ := Nat.exists_eq_add_one_of_ne_zero (Nat.ne_zero_of_lt hn)
  rw [h.start n b file hb]
  by_cases heof : b = 255
  · refine ⟨1, by simp [heof], ?_⟩
    rw [if_pos heof, h.nil 0 _ (Or.inl rfl), heof]
    rfl
  · rw [if_neg heof, toChar_ne_none heof, if_neg (Option.some_ne_none b)]
    exact h.remainder file (by simpa using hn)

theorem SkipsLines.line (h : SkipsLines loop done ignored) {b : Byte} (hb : ignored b)
    (hend : LineEnd ending rest) (hnew : newline ∉ s) (heof : 255 ∉ b :: s)
    (hn : (b :: s ++ ending).length < n) :
    ∃ m, rest.length < m ∧ loop n .e (b :: s ++ ending) = loop m .e rest := by
  rw [List.mem_cons, not_or] at heof
  rw [List.cons_append] at hn ⊢
  have hfirst := h.first hb hn
  rwa [if_neg (Ne.symm heof.1), skipLine_line hend hnew heof.2] at hfirst

/-- The byte 255 in a line is the end. -/
theorem SkipsLines.stop (h : SkipsLines loop done ignored) {b : Byte} (hb : ignored b)
    (hnew : newline ∉ s) (heof : 255 ∈ b :: s) (hn : (b :: s ++ file).length < n) :
    loop n .e (b :: s ++ file) = done := by
  have hskip : (if b = 255 then [] else skipLine (s ++ file)) = [] := by
    by_cases hfirst : b = 255
    · exact if_pos hfirst
    · rw [if_neg hfirst]
      exact skipLine_stop hnew ((List.mem_cons.1 heof).resolve_left (Ne.symm hfirst))
  rw [List.cons_append] at hn ⊢
  obtain ⟨m, hm, heq⟩ := h.first hb hn
  rw [hskip] at hm heq
  obtain ⟨m, rfl⟩ := Nat.exists_eq_add_one_of_ne_zero (Nat.ne_zero_of_lt hm)
  exact heq.trans (h.nil m .e (Or.inl rfl))

end

/-- A byte that ends a value: a newline, or what is the end of the file as a `char`. -/
def EndsLine (b : Byte) : Prop := toChar b = none ∨ b = newline

instance : DecidablePred EndsLine := fun b =>
  inferInstanceAs (Decidable (toChar b = none ∨ b = newline))

/-- The value a text starts with. -/
def valueText (file : List Byte) : List Byte := file.takeWhile fun b => ¬ EndsLine b

/-- What is behind the byte that ends it. -/
def valueRest (file : List Byte) : List Byte := (file.dropWhile fun b => ¬ EndsLine b).tail

theorem valueText_cons (b : Byte) (file : List Byte) :
    valueText (b :: file) = if EndsLine b then [] else b :: valueText file := by
  unfold valueText
  by_cases hb : EndsLine b <;> simp [hb]

theorem valueRest_cons (b : Byte) (file : List Byte) :
    valueRest (b :: file) = if EndsLine b then file else valueRest file := by
  unfold valueRest
  by_cases hb : EndsLine b <;> simp [hb]

theorem not_endsLine {b : Byte} (hnew : b ≠ newline) (heof : b ≠ 255) : ¬ EndsLine b := by
  unfold EndsLine
  rw [toChar_ne_none heof]
  simpa using hnew

theorem value_line (hend : LineEnd ending rest) (hnew : newline ∉ s) (heof : 255 ∉ s) :
    valueText (s ++ ending) = s ∧ valueRest (s ++ ending) = rest := by
  induction s with
  | nil =>
    have hnl : EndsLine newline := Or.inr rfl
    cases hend with
    | newline rest => simp [valueText_cons, valueRest_cons, hnl]
    | eof => exact ⟨rfl, rfl⟩
  | cons b s ih =>
    rw [List.mem_cons, not_or] at hnew heof
    have hb := not_endsLine (Ne.symm hnew.1) (Ne.symm heof.1)
    obtain ⟨htext, hrest⟩ := ih hnew.2 heof.2
    rw [List.cons_append, valueText_cons, valueRest_cons, if_neg hb, if_neg hb, htext]
    exact ⟨rfl, hrest⟩

/-- The loop keeps its value within the buffer. -/
theorem readValueLoop_eq (file : List Byte) : ∀ {value : List Byte} {allocated : ℕ},
    value.length ≤ allocated →
      readValueLoop file value allocated = .ok (value ++ valueText file, valueRest file) := by
  induction file with
  | nil =>
    intro value allocated hlen
    rw [readValueLoop, endValue, if_pos (by omega)]
    simp [valueText, valueRest]
  | cons b file ih =>
    intro value allocated hlen
    rw [readValueLoop, valueText_cons, valueRest_cons]
    by_cases hb : EndsLine b
    · have hends : toChar b = none ∨ b = newline := hb
      rw [if_pos hb, if_pos hb, if_pos hends, endValue, if_pos (by omega), List.append_nil]
    · have hgo : ¬ (toChar b = none ∨ b = newline) := hb
      rw [if_neg hb, if_neg hb, if_neg hgo]
      simp only
      rw [if_pos (by split <;> omega), ih (by simp; split <;> omega)]
      simp

/-- A value is cut to the length it may have. -/
theorem fileReadValue_value (file : List Byte) (maxLength : ℕ) : fileReadValue file maxLength =
    .ok (if maxLength ≤ (valueText file).length ∧ maxLength ≠ 0
      then (valueText file).take (maxLength - 1) else valueText file, valueRest file) := by
  unfold fileReadValue
  rw [readValueLoop_eq file (Nat.zero_le _)]
  simp only [bind, Except.bind, List.nil_append]
  split <;> rfl

/-- **A value is read up to the end of its line**, and cut to the length it may have. -/
theorem fileReadValue_line (hend : LineEnd ending rest) (hnew : newline ∉ s) (heof : 255 ∉ s)
    (maxLength : ℕ) : fileReadValue (s ++ ending) maxLength =
      .ok (if maxLength ≤ s.length ∧ maxLength ≠ 0 then s.take (maxLength - 1) else s, rest) := by
  obtain ⟨htext, hrest⟩ := value_line hend hnew heof
  rw [fileReadValue_value, htext, hrest]

/-- One turn of the loop of `read_cfg`. -/
theorem readLoop_turn (state : FmState) (b : Byte) {state' : FmState} {actC : Option Byte}
    {file' : List Byte} {r' : CfgParsed}
    (h : readTurn state (toChar b) file r = .ok (state', actC, file', r')) :
    readLoop (n + 1) state (b :: file) r =
      if actC = none then .ok r' else readLoop n state' file' r' := by
  rw [readLoop]
  simp only [fgetc, h, bind, Except.bind]
  rfl

theorem CfgComment.first_ne (c : CfgComment) : c.first ≠ 97 ∧ c.first ≠ 115 ∧ c.first ≠ 112 ∧
    c.first ≠ 105 ∧ c.first ≠ newline := by
  have hfirst := c.ignored
  simpa only [List.mem_cons, List.not_mem_nil, or_false, not_or] using hfirst

theorem CfgComment.first_ne_head (c : CfgComment) (key : CfgKey) :
    c.first ≠ key.name.headD 0 := by
  obtain ⟨ha, hs, hp, hi, -⟩ := c.first_ne
  cases key with
  | address => exact ha
  | server => exact hs
  | port => exact hp
  | id => exact hi

/-- A comment starts like one. -/
theorem CfgComment.lineState_first (c : CfgComment) : lineState (toChar c.first) = .c := by
  by_cases heof : c.first = 255
  · rw [heof]
    rfl
  · obtain ⟨ha, hs, hp, hi, -⟩ := c.first_ne
    simp [lineState, toChar_inj heof, ha, hs, hp, hi]

/-- The loop of `read_cfg` skips comments. -/
theorem readLoop_skips (r : CfgParsed) :
    SkipsLines (fun n state file => readLoop n state file r) (.ok r)
      (fun b => lineState (toChar b) = .c) where
  nil n state hstate := by obtain rfl | rfl := hstate <;> rfl
  start n b file hb := by
    have hturn : readTurn .e (toChar b) file r = .ok (.c, toChar b, file, r) := by
      rw [readTurn, hb]
    exact readLoop_turn .e b hturn
  skip n b file := readLoop_turn .c b rfl

/-- What a value is cut to. -/
def cutValue (maxLength : ℕ) (s : List Byte) : List Byte :=
  if maxLength ≤ s.length ∧ maxLength ≠ 0 then s.take (maxLength - 1) else s

theorem cutValue_zero (s : List Byte) : cutValue 0 s = s := by
  simp [cutValue]

theorem cutValue_five (s : List Byte) : cutValue 5 s = s.take 4 := by
  unfold cutValue
  split
  · rfl
  · rename_i h
    rw [List.take_of_length_le (by omega)]

/-- `compare` takes as many characters as it looks at, whatever they are. -/
theorem compareChars_drop (str : List Byte) : ∀ (x : Byte) (file : List Byte) (state : FmState),
    (compareChars (fgetc file).2 (x :: str) state (fgetc file).1).1 =
      file.drop (str.length + 1) := by
  induction str with
  | nil =>
    intro x file state
    cases file <;> rfl
  | cons y str ih =>
    intro x file state
    rw [compareChars, ih]
    cases file with
    | nil => simp [fgetc]
    | cons z file => rfl

/-- The state after `compare` tells whether the characters are there. The end of the file is no
character, but looks like the byte 255. -/
theorem compareChars_state (str : List Byte) : ∀ (x : Byte) (file : List Byte) (state : FmState),
    255 ∉ x :: str ∨ (x :: str).length ≤ file.length →
      (compareChars (fgetc file).2 (x :: str) state (fgetc file).1).2.1 =
        if x :: str <+: file then state else .c := by
  induction str with
  | nil =>
    intro x file state h
    cases file with
    | nil =>
      have hx : x ≠ 255 := by simpa [eq_comm] using h
      simp [compareChars, fgetc, toChar_ne_none hx]
    | cons z file =>
      simp only [compareChars, fgetc, ne_eq, toChar_injective.eq_iff, ite_not,
        List.cons_prefix_cons, List.nil_prefix, and_true, eq_comm (a := x)]
  | cons y str ih =>
    intro x file state h
    rw [compareChars]
    cases file with
    | nil =>
      have heof : 255 ∉ x :: y :: str := h.resolve_right (by simp)
      rw [fgetc, ih y [] _ (Or.inl fun hmem => heof (List.mem_cons_of_mem x hmem))]
      simp
    | cons z file =>
      have htail : 255 ∉ y :: str ∨ (y :: str).length ≤ file.length :=
        h.imp (fun heof hmem => heof (List.mem_cons_of_mem x hmem)) (by simp)
      rw [fgetc, ih y file _ htail]
      simp only [List.cons_prefix_cons, toChar_injective.ne_iff]
      by_cases hzx : z = x
      · simp [hzx]
      · simp [hzx, Ne.symm hzx]

/-- The last character it has looked at. -/
theorem compareChars_char (str : List Byte) : ∀ (x : Byte) (file : List Byte) (state : FmState),
    (compareChars (fgetc file).2 (x :: str) state (fgetc file).1).2.2 =
      file[str.length]?.bind toChar := by
  induction str with
  | nil =>
    intro x file state
    cases file <;> rfl
  | cons y str ih =>
    intro x file state
    rw [compareChars, ih]
    cases file <;> simp [fgetc]

/-- Characters that are there are consumed, but for the first two, which are already. -/
theorem compareChars_eq {state : FmState} (str : List Byte) :
    ∀ x, compareChars (str ++ file) (x :: str) state (toChar x) =
      (file, state, toChar ((x :: str).getLast (List.cons_ne_nil x str))) := by
  induction str with
  | nil =>
    intro x
    simp [compareChars]
  | cons y str ih =>
    intro x
    simpa [compareChars, fgetc] using ih y

theorem compare_eq {state : FmState} (c x : Byte) (str : List Byte) :
    compare (str ++ file) (c :: x :: str) (str.length + 1) state (toChar x) =
      (file, state, toChar ((x :: str).getLast (List.cons_ne_nil x str))) := by
  have hchars : ((c :: x :: str).drop 1).take (str.length + 1) = x :: str := by simp
  rw [compare, hchars, compareChars_eq]

/-- A line that starts with the whole of a setting is read to its end. -/
theorem readSetting_line (c x : Byte) (str : List Byte)
    (hlast : (x :: str).getLast (List.cons_ne_nil x str) = equals) (maxLength : ℕ)
    (store : List Byte → CfgParsed → CfgParsed) (state : FmState) (value : CfgValue)
    (hend : LineEnd ending rest) :
    readSetting (c :: x :: str) (str.length + 1) maxLength store state (toChar x)
        (str ++ (value.bytes ++ ending)) r =
      .ok (.e, toChar equals, rest, store (cutValue maxLength value.bytes) r) := by
  unfold readSetting
  rw [compare_eq, hlast]
  simp only [if_true]
  rw [fileReadValue_line hend value.no_newline value.no_eof]
  rfl

/-- Two turns on a line that starts with a setting, `c` and `x` its first characters. -/
theorem readLoop_name (c x : Byte) (str : List Byte) (state : FmState) (maxLength : ℕ)
    (store : List Byte → CfgParsed → CfgParsed) (hc : toChar c = some c)
    (hlast : (x :: str).getLast (List.cons_ne_nil x str) = equals)
    (hstart : lineState (toChar c) = state)
    (hswitch : ∀ actC file, readTurn state actC file r =
      readSetting (c :: x :: str) (str.length + 1) maxLength store state actC file r)
    (value : CfgValue) (hend : LineEnd ending rest) :
    readLoop (n + 2) .e (c :: x :: str ++ (value.bytes ++ ending)) r =
      readLoop n .e rest (store (cutValue maxLength value.bytes) r) := by
  have hfirst : readTurn .e (toChar c) (x :: str ++ (value.bytes ++ ending)) r =
      .ok (state, toChar c, x :: str ++ (value.bytes ++ ending), r) := by
    rw [readTurn, hstart]
  have hsecond : readTurn state (toChar x) (str ++ (value.bytes ++ ending)) r =
      .ok (.e, toChar equals, rest, store (cutValue maxLength value.bytes) r) := by
    rw [hswitch, readSetting_line c x str hlast maxLength store state value hend]
  rw [List.cons_append, readLoop_turn .e c hfirst, hc, if_neg (Option.some_ne_none c),
    List.cons_append, readLoop_turn state x hsecond]
  rfl

/-- The first two turns on a setting read its value. -/
theorem readLoop_setting (key : CfgKey) (value : CfgValue) (hend : LineEnd ending rest) :
    readLoop (n + 2) .e (key.name ++ equals :: (value.bytes ++ ending)) r =
      readLoop n .e rest ((CfgLine.setting key value).apply r) := by
  cases key with
  | address =>
    have hline := readLoop_name 97 100 (text ['d', 'r', 'e', 's', 's', '=']) .a 0 setAddress rfl rfl rfl
      (fun _ _ => rfl) value hend (n := n) (r := r)
    rwa [cutValue_zero] at hline
  | server =>
    have hline := readLoop_name 115 101 (text ['r', 'v', 'e', 'r', '=']) .s 0 setAddress rfl rfl rfl
      (fun _ _ => rfl) value hend (n := n) (r := r)
    rwa [cutValue_zero] at hline
  | port =>
    have hline := readLoop_name 112 111 (text ['r', 't', '=']) .p 5 setCommPort rfl rfl rfl
      (fun _ _ => rfl) value hend (n := n) (r := r)
    rwa [cutValue_five] at hline
  | id =>
    have hline := readLoop_name 105 100 (text ['=']) .i 0 setClientId rfl rfl rfl
      (fun _ _ => rfl) value hend (n := n) (r := r)
    rwa [cutValue_zero] at hline

/-- **A line is read as what it says.** -/
theorem readLoop_line {l : CfgLine} (hl : ¬ l.Stops) (hend : LineEnd ending rest)
    (hn : (l.bytes ++ ending).length < n) :
    ∃ m, rest.length < m ∧ readLoop n .e (l.bytes ++ ending) r = readLoop m .e rest (l.apply r) := by
  have hle := hend.length_le
  cases l with
  | comment c => exact (readLoop_skips r).line c.lineState_first hend c.no_newline hl hn
  | setting key value =>
    have hlen : 2 ≤ (CfgLine.setting key value).bytes.length := by
      cases key <;> simp [CfgLine.bytes, CfgKey.name, text]
    obtain ⟨n, rfl⟩ : ∃ k, n = k + 2 := ⟨n - 2, by simp at hn; omega⟩
    refine ⟨n, by simp at hn; omega, ?_⟩
    rw [CfgLine.bytes, List.append_assoc, List.cons_append, readLoop_setting key value hend]

/-- A line that stops the reading adds nothing. -/
theorem readLoop_stops {l : CfgLine} (hl : l.Stops) (hn : (l.bytes ++ file).length < n) :
    readLoop n .e (l.bytes ++ file) r = .ok r := by
  cases l with
  | setting key value => exact absurd hl id
  | comment c => exact (readLoop_skips r).stop c.lineState_first c.no_newline hl hn

/-- The lines of a file are read in order, up to the first that stops the reading. -/
theorem readLoop_lines (tail : Option CfgLine) (lines : List CfgLine) :
    ∀ {n : ℕ} {r : CfgParsed}, (CfgText.bytes ⟨lines, tail⟩).length < n →
      readLoop n .e (CfgText.bytes ⟨lines, tail⟩) r =
        .ok ((CfgText.seen ⟨lines, tail⟩).foldl CfgLine.apply r) := by
  induction lines with
  | nil =>
    intro n r hn
    cases tail with
    | none =>
      obtain ⟨n, rfl⟩ := Nat.exists_eq_add_one_of_ne_zero (Nat.ne_zero_of_lt hn)
      exact (readLoop_skips r).nil n .e (Or.inl rfl)
    | some l =>
      rw [CfgText.bytes_tail] at hn ⊢
      rw [CfgText.seen_tail]
      by_cases hl : l.Stops
      · rw [readLoop_stops hl hn, if_pos hl]
        rfl
      · obtain ⟨m, hm, heq⟩ := readLoop_line (r := r) hl .eof hn
        obtain ⟨m, rfl⟩ := Nat.exists_eq_add_one_of_ne_zero (Nat.ne_zero_of_lt hm)
        rw [heq, (readLoop_skips _).nil m .e (Or.inl rfl), if_neg hl]
        rfl
  | cons l lines ih =>
    intro n r hn
    rw [CfgText.bytes_cons] at hn ⊢
    rw [CfgText.seen_cons]
    by_cases hl : l.Stops
    · rw [readLoop_stops hl hn, if_pos hl]
      rfl
    · obtain ⟨m, hm, heq⟩ := readLoop_line (r := r) hl (.newline _) hn
      rw [heq, ih hm, if_neg hl]
      rfl

/-- **`read_cfg` reads the lines in order**, up to the first that stops it. -/
theorem readCfg_bytes (f : CfgText) (out : CfgOut) :
    readCfg (some f.bytes) out = .ok (0, f.settings.out) := by
  unfold readCfg
  simp only
  rw [readLoop_lines f.tail f.lines (Nat.lt_succ_self _)]
  rfl

end Rds
