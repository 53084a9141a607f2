import Rds.Proof.CfgLines
import Rds.Lib.LineScan

/-!
# The readers as scanners

`read_cfg` and `read_srv_cfg` look at the first character of a line, then at as many characters as
the setting has that starts with it, and then skip the rest of the line or take it as a value. So
each is a scanner of lines, on every file without a byte 255.

* `readSetting_eq`: what is consumed of a line that starts like a setting, and what it says.
* `ReadsKeys.line`: a line start, one line later.
* `readCfg_run`, `readSrvCfg_run`: **the readers return what the scanned lines say**.
-/

namespace Rds

open LineScan

variable {file : List Byte} {r : CfgParsed} {n : ℕ} {keys : List CfgKey} {key : CfgKey} {b : Byte}

/-! ## Settings -/

namespace CfgKey

/-- The text a line of the setting starts with. -/
def label (key : CfgKey) : List Byte := key.name ++ [equals]

def first : CfgKey → Byte
  | address => 97
  | server => 115
  | port => 112
  | id => 105

def state : CfgKey → FmState
  | address => .a
  | server => .s
  | port => .p
  | id => .i

def maxLength : CfgKey → ℕ
  | port => 5
  | _ => 0

def set : CfgKey → List Byte → CfgParsed → CfgParsed
  | address => setAddress
  | server => setAddress
  | port => setCommPort
  | id => setClientId

/-- What a line of the setting says. -/
def store (key : CfgKey) (value : List Byte) (r : CfgParsed) : CfgParsed :=
  key.set (cutValue key.maxLength value) r

theorem label_eq (key : CfgKey) : ∃ x str, key.label = key.first :: x :: str ∧
    (x :: str).getLast (List.cons_ne_nil x str) = equals := by
  cases key <;> exact ⟨_, _, rfl, rfl⟩

theorem eof_notMem_label (key : CfgKey) : 255 ∉ key.label := by
  cases key <;> decide

theorem newline_notMem_label (key : CfgKey) : newline ∉ key.label := by
  cases key <;> decide

theorem state_ne (key : CfgKey) : FmState.c ≠ key.state := by
  cases key <;> decide

end CfgKey

theorem CfgKey.first_eq (key : CfgKey) : key.first = key.name.headD 0 := by
  cases key <;> rfl

/-- The setting a line may be of, by its first character. -/
def keyOf (keys : List CfgKey) (b : Byte) : Option CfgKey := keys.find? fun key => key.first = b

theorem keyOf_eq_some (h : keyOf keys b = some key) : key ∈ keys ∧ key.first = b := by
  refine ⟨List.mem_of_find?_eq_some h, ?_⟩
  simpa using List.find?_some h

/-- The scanner of a reader that knows these settings. -/
def cfgScanner (keys : List CfgKey) : Scanner Byte where
  newline := newline
  window b := (keyOf keys b).elim 1 fun key => key.label.length
  window_pos b := by
    cases keyOf keys b with
    | none => exact Nat.one_pos
    | some key => cases key <;> decide

/-- The text up to the end of its line. -/
def lineValue (s : List Byte) : List Byte := s.takeWhile fun b => b ≠ newline

/-- What a line says. -/
def lineEffect (keys : List CfgKey) (s : List Byte) (r : CfgParsed) : CfgParsed :=
  match s.head?.bind (keyOf keys) with
  | none => r
  | some key => if key.label <+: s then key.store (lineValue (s.drop key.label.length)) r else r

theorem lineEffect_none (h : keyOf keys b = none) (s : List Byte) (r : CfgParsed) :
    lineEffect keys (b :: s) r = r := by
  unfold lineEffect
  rw [List.head?_cons, Option.bind_some, h]

theorem lineEffect_some (h : keyOf keys b = some key) (s : List Byte) (r : CfgParsed) :
    lineEffect keys (b :: s) r =
      if key.label <+: b :: s then key.store (lineValue ((b :: s).drop key.label.length)) r
      else r := by
  unfold lineEffect
  rw [List.head?_cons, Option.bind_some, h]

theorem lineValue_append {s : List Byte} (h : newline ∈ s) (u : List Byte) :
    lineValue (s ++ u) = lineValue s := by
  unfold lineValue
  induction s with
  | nil => cases h
  | cons b s ih =>
    rw [List.cons_append, List.takeWhile_cons, List.takeWhile_cons]
    by_cases hb : b = newline
    · simp [hb]
    · rw [List.mem_cons] at h
      rw [ih (h.resolve_left (Ne.symm hb))]

theorem lineValue_line {s ending rest : List Byte} (hend : LineEnd ending rest)
    (hnew : newline ∉ s) : lineValue (s ++ ending) = s := by
  have hall : ∀ b ∈ s, decide (b ≠ newline) = true := by
    intro b hb
    exact decide_eq_true fun h => hnew (h ▸ hb)
  unfold lineValue
  rw [List.takeWhile_append_of_pos hall]
  cases hend <;> simp

/-- What the lines say that a reader knows. -/
def cfgReading (keys : List CfgKey) : Reading (cfgScanner keys) CfgParsed where
  effect := lineEffect keys
  complete {s t} u h := by
    cases s with
    | nil => cases h
    | cons b s =>
      funext r
      cases hk : keyOf keys b with
      | none => rw [List.cons_append, lineEffect_none hk, lineEffect_none hk]
      | some key =>
        have hwindow : (cfgScanner keys).window b = key.label.length := by
          simp only [cfgScanner, hk, Option.elim]
        have hnew : newline ∈ (b :: s).drop key.label.length := by
          by_contra hnot
          rw [Scanner.nextLine?, hwindow, Scanner.afterNewline_none_iff.2 hnot] at h
          cases h
        have hle : key.label.length ≤ (b :: s).length := by
          by_contra hlt
          rw [List.drop_of_length_le (by omega)] at hnew
          cases hnew
        have hstarts : key.label <+: b :: s ++ u ↔ key.label <+: b :: s := by
          rw [List.prefix_iff_eq_take, List.prefix_iff_eq_take, List.take_append_of_le_length hle]
        rw [List.cons_append, lineEffect_some hk, lineEffect_some hk, ← List.cons_append,
          List.drop_append_of_le_length hle, lineValue_append hnew]
        simp only [hstarts]
  overrun {b s} r h := by
    cases hk : keyOf keys b with
    | none => exact lineEffect_none hk s r
    | some key =>
      have hwindow : (cfgScanner keys).window b = key.label.length := by
        simp only [cfgScanner, hk, Option.elim]
      rw [lineEffect_some hk, if_neg]
      intro hstarts
      rw [hwindow, ← List.prefix_iff_eq_take.1 hstarts] at h
      exact key.newline_notMem_label h

/-! ## One line -/

theorem skipLine_eq (keys : List CfgKey) (hfile : 255 ∉ file) :
    skipLine file = ((cfgScanner keys).afterNewline file).getD [] := by
  induction file with
  | nil => rfl
  | cons b file ih =>
    rw [List.mem_cons, not_or] at hfile
    have hnl : (cfgScanner keys).newline = newline := rfl
    rw [skipLine, if_neg (Ne.symm hfile.1), Scanner.afterNewline, hnl]
    by_cases hb : b = newline
    · rw [if_pos hb, if_pos hb, Option.getD_some]
    · rw [if_neg hb, if_neg hb]
      exact ih hfile.2

/-- **A line that starts like a setting**, behind its first character, whatever the file holds. -/
theorem readSetting_eq (key : CfgKey) (file : List Byte) :
    readSetting key.label (key.label.length - 1) key.maxLength key.set key.state (fgetc file).1
        (fgetc file).2 r =
      if key.label <+: key.first :: file then
        .ok (.e, some equals, valueRest (file.drop (key.label.length - 1)),
          key.store (valueText (file.drop (key.label.length - 1))) r)
      else .ok (.c, file[key.label.length - 2]?.bind toChar, file.drop (key.label.length - 1),
        r) := by
  obtain ⟨x, str, hlabel, hlast⟩ := key.label_eq
  have heof := key.eof_notMem_label
  rw [hlabel] at heof ⊢
  have heof' : 255 ∉ x :: str := fun h => heof (List.mem_cons_of_mem _ h)
  have hchars : ((key.first :: x :: str).drop 1).take ((key.first :: x :: str).length - 1) =
      x :: str := by simp
  have hlen : (key.first :: x :: str).length - 1 = str.length + 1 := by simp
  have hlen' : (key.first :: x :: str).length - 2 = str.length := by simp
  have hcompare : compareChars (fgetc file).2 (x :: str) key.state (fgetc file).1 =
      (file.drop (str.length + 1), if x :: str <+: file then key.state else .c,
        file[str.length]?.bind toChar) := by
    refine Prod.ext (compareChars_drop str x file _) (Prod.ext ?_ ?_)
    · exact compareChars_state str x file _ (Or.inl heof')
    · exact compareChars_char str x file _
  unfold readSetting
  rw [compare, hchars, hlen, hlen', hcompare]
  simp only [List.cons_prefix_cons, true_and]
  by_cases hstarts : x :: str <+: file
  · have hget : file[str.length]? = some equals := by
      obtain ⟨u, rfl⟩ := hstarts
      rw [← hlast, List.getElem?_append_left (by simp), List.getLast_eq_getElem,
        List.getElem?_eq_getElem (by simp)]
      simp
    rw [if_pos hstarts, if_pos rfl, if_pos hstarts, fileReadValue_value, hget]
    rfl
  · rw [if_neg hstarts, if_neg key.state_ne, if_neg hstarts]
    rfl

/-- The value and the rest of the line, in a file without a byte 255. -/
theorem value_eq (keys : List CfgKey) (hfile : 255 ∉ file) :
    valueText file = lineValue file ∧
      valueRest file = ((cfgScanner keys).afterNewline file).getD [] := by
  obtain ⟨s, ending, rest, rfl, hend, hnew⟩ := exists_line file
  have heof : 255 ∉ s := fun h => hfile (List.mem_append_left _ h)
  obtain ⟨htext, hrest⟩ := value_line hend hnew heof
  rw [htext, hrest, lineValue_line hend hnew, ← skipLine_eq keys hfile,
    skipLine_line hend hnew heof]
  exact ⟨rfl, rfl⟩

/-- The line in a file without a byte 255. -/
theorem readSetting_take (keys : List CfgKey) (key : CfgKey) (hfile : 255 ∉ file) :
    readSetting key.label (key.label.length - 1) key.maxLength key.set key.state (fgetc file).1
        (fgetc file).2 r =
      if key.label <+: key.first :: file then
        .ok (.e, some equals,
          ((cfgScanner keys).afterNewline (file.drop (key.label.length - 1))).getD [],
          key.store (lineValue (file.drop (key.label.length - 1))) r)
      else .ok (.c, file[key.label.length - 2]?, file.drop (key.label.length - 1), r) := by
  have hdrop : 255 ∉ file.drop (key.label.length - 1) := fun h => hfile (List.mem_of_mem_drop h)
  have hchar : file[key.label.length - 2]?.bind toChar = file[key.label.length - 2]? := by
    cases hget : file[key.label.length - 2]? with
    | none => rfl
    | some z => exact toChar_ne_none fun hz => hfile (hz ▸ List.mem_of_getElem? hget)
  obtain ⟨htext, hrest⟩ := value_eq keys hdrop
  rw [readSetting_eq, htext, hrest, hchar]

/-! ## The readers -/

/-- The state after the first character of a line, for a reader that knows these settings. -/
def keyState (keys : List CfgKey) (b : Byte) : FmState := (keyOf keys b).elim .c CfgKey.state

/-- **A loop that reads settings**: one of a reader that knows those. -/
structure ReadsKeys (loop : ℕ → FmState → List Byte → CfgParsed → Except Halt CfgParsed)
    (keys : List CfgKey) : Prop where
  nil : ∀ n state r, state = .e ∨ state = .c → loop (n + 1) state [] r = .ok r
  start : ∀ n b file r, loop (n + 1) .e (b :: file) r =
    if toChar b = none then .ok r else loop n (keyState keys b) file r
  skip : ∀ n b file r, loop (n + 1) .c (b :: file) r =
    if toChar b = none then .ok r
    else loop n (if toChar b = toChar newline then .e else .c) file r
  setting : ∀ key ∈ keys, ∀ n file r, loop (n + 1) key.state file r = do
    let (state, actC, file, r) ← readSetting key.label (key.label.length - 1) key.maxLength key.set
      key.state (fgetc file).1 (fgetc file).2 r
    if actC = none then return r else loop n state file r

section
variable {loop : ℕ → FmState → List Byte → CfgParsed → Except Halt CfgParsed}

theorem ReadsKeys.skips (h : ReadsKeys loop keys) (r : CfgParsed) :
    SkipsLines (fun n state file => loop n state file r) (.ok r) (fun b => keyOf keys b = none) where
  nil n state hstate := h.nil n state r hstate
  start n b file hb := by
    have hstart := h.start n b file r
    unfold keyState at hstart
    rwa [hb] at hstart
  skip n b file := h.skip n b file r

/-- The rest of a line is skipped. -/
theorem ReadsKeys.remainder (h : ReadsKeys loop keys) (hfile : 255 ∉ file)
    (hn : file.length < n) : ∃ m, (((cfgScanner keys).afterNewline file).getD []).length < m ∧
      loop n .c file r = loop m .e (((cfgScanner keys).afterNewline file).getD []) r := by
  rw [← skipLine_eq keys hfile]
  exact (h.skips r).remainder file hn

/-- **One line**: from a line start the loop goes on to the next, with what the line says. -/
theorem ReadsKeys.line (h : ReadsKeys loop keys) (hfile : 255 ∉ b :: file)
    (hn : (b :: file).length < n) : ∃ m, ((cfgScanner keys).next (b :: file)).length < m ∧
      loop n .e (b :: file) r =
        loop m .e ((cfgScanner keys).next (b :: file)) (lineEffect keys (b :: file) r) := by
  obtain ⟨n, rfl⟩ := Nat.exists_eq_add_one_of_ne_zero (Nat.ne_zero_of_lt hn)
  rw [List.mem_cons, not_or] at hfile
  rw [h.start, toChar_ne_none (Ne.symm hfile.1), if_neg (Option.some_ne_none b)]
  unfold Scanner.next
  rw [Scanner.nextLine?]
  cases hk : keyOf keys b with
  | none =>
    have hwindow : (cfgScanner keys).window b = 1 := by simp only [cfgScanner, hk, Option.elim]
    have hstate : keyState keys b = .c := by simp only [keyState, hk, Option.elim]
    rw [hwindow, List.drop_one, List.tail_cons, lineEffect_none hk, hstate]
    exact h.remainder hfile.2 (by simpa using hn)
  | some key =>
    obtain ⟨hmem, hfirst⟩ := keyOf_eq_some hk
    obtain ⟨x, str, hlabel, -⟩ := key.label_eq
    have hlen : key.label.length = (key.label.length - 1) + 1 := by rw [hlabel]; rfl
    have hwindow : (cfgScanner keys).window b = key.label.length := by
      simp only [cfgScanner, hk, Option.elim]
    have hstate : keyState keys b = key.state := by simp only [keyState, hk, Option.elim]
    have hdrop : (b :: file).drop key.label.length = file.drop (key.label.length - 1) := by
      rw [hlen, List.drop_succ_cons, Nat.add_sub_cancel]
    have heof : 255 ∉ file.drop (key.label.length - 1) :=
      fun h => hfile.2 (List.mem_of_mem_drop h)
    rw [hwindow, hdrop, lineEffect_some hk, hdrop, hstate, ← hfirst]
    simp only [List.length_cons] at hn
    obtain ⟨n, rfl⟩ := Nat.exists_eq_add_one_of_ne_zero (show n ≠ 0 by omega)
    rw [h.setting key hmem, readSetting_take keys key hfile.2]
    by_cases hstarts : key.label <+: key.first :: file
    · have hle := hstarts.length_le
      rw [List.length_cons] at hle
      rw [if_pos hstarts, if_pos hstarts]
      refine ⟨n, ?_, rfl⟩
      cases hnext : (cfgScanner keys).afterNewline (file.drop (key.label.length - 1)) with
      | none => rw [hlabel] at hle; simp at hle ⊢; omega
      | some t =>
        obtain ⟨c, hc⟩ := Scanner.afterNewline_split hnext
        have hlength := congrArg List.length hc
        simp only [List.length_drop, List.length_append, List.length_cons] at hlength
        simp only [Option.getD_some]
        omega
    · rw [if_neg hstarts, if_neg hstarts]
      by_cases hend : file[key.label.length - 2]? = none
      · -- the file ends within the window
        have hempty : file.drop (key.label.length - 1) = [] := by
          rw [List.getElem?_eq_none_iff] at hend
          exact List.drop_of_length_le (by omega)
        refine ⟨1, ?_, ?_⟩
        · rw [hempty]
          exact Nat.one_pos
        · simp only [bind, Except.bind, if_pos hend]
          rw [hempty]
          exact (h.nil 0 .e r (Or.inl rfl)).symm
      · have hlt : (file.drop (key.label.length - 1)).length < n := by
          rw [List.getElem?_eq_none_iff, hlabel] at hend
          rw [List.length_drop, hlabel]
          simp only [List.length_cons] at hend ⊢
          omega
        simp only [bind, Except.bind, if_neg hend]
        exact h.remainder heof hlt

/-- **A loop that reads settings** returns what the lines say. -/
theorem ReadsKeys.run (h : ReadsKeys loop keys) (hfile : 255 ∉ file) (hn : file.length < n) :
    loop n .e file r = .ok ((cfgReading keys).run file r) := by
  induction hlen : file.length using Nat.strongRecOn generalizing file n r with
  | ind k ih =>
    cases file with
    | nil =>
      obtain ⟨n, rfl⟩ := Nat.exists_eq_add_one_of_ne_zero (Nat.ne_zero_of_lt hn)
      rw [h.nil n .e r (Or.inl rfl), Reading.run_nil]
    | cons b file =>
      obtain ⟨m, hm, hline⟩ := h.line hfile hn (r := r)
      have hlt := (cfgScanner keys).length_next_lt (List.cons_ne_nil b file)
      have hnext : 255 ∉ (cfgScanner keys).next (b :: file) := by
        unfold Scanner.next
        cases hs : (cfgScanner keys).nextLine? (b :: file) with
        | none => exact List.not_mem_nil
        | some t =>
          obtain ⟨c, hc⟩ := Scanner.nextLine?_split hs
          intro hmem
          exact hfile (hc ▸ List.mem_append_right c (List.mem_cons_of_mem _ hmem))
      rw [hline, ih _ (hlen ▸ hlt) hnext hm rfl, Reading.run_cons]
      rfl

end

/-- The settings of `read_cfg`. -/
def cfgKeys : List CfgKey := [.address, .server, .port, .id]

/-- Those of `read_srv_cfg`. -/
def srvKeys : List CfgKey := [.port]

theorem lineState_eq (hb : b ≠ 255) : lineState (toChar b) = keyState cfgKeys b := by
  by_cases ha : b = 97
  · rw [ha]; rfl
  by_cases hs : b = 115
  · rw [hs]; rfl
  by_cases hp : b = 112
  · rw [hp]; rfl
  by_cases hi : b = 105
  · rw [hi]; rfl
  simp [lineState, keyState, keyOf, cfgKeys, CfgKey.first, toChar_inj hb, ha, hs, hp, hi,
    eq_comm (b := b)]

theorem srvLineState_eq (hb : b ≠ 255) : srvLineState (toChar b) = keyState srvKeys b := by
  by_cases hp : b = 112
  · rw [hp]; rfl
  · simp [srvLineState, keyState, keyOf, srvKeys, CfgKey.first, toChar_inj hb, hp, eq_comm (b := b)]

theorem readLoop_readsKeys : ReadsKeys readLoop cfgKeys where
  nil n state r hstate := by
    rcases hstate with h | h <;> rw [h] <;> rfl
  start n b file r := by
    rw [readLoop_turn .e b rfl]
    by_cases hb : b = 255
    · simp [hb, toChar]
    · rw [lineState_eq hb]
  skip n b file r := readLoop_turn .c b rfl
  setting key _ n file r := by
    cases key <;> rfl

theorem readSrvLoop_readsKeys : ReadsKeys readSrvLoop srvKeys where
  nil n state r hstate := by
    rcases hstate with h | h <;> rw [h] <;> rfl
  start n b file r := by
    by_cases hb : b = 255
    · rw [hb]
      rfl
    · rw [← srvLineState_eq hb]
      rfl
  skip n b file r := rfl
  setting key hkey n file r := by
    rw [srvKeys, List.mem_singleton] at hkey
    rw [hkey]
    rfl

/-- Nothing read yet. -/
def CfgParsed.none : CfgParsed := ⟨.none, .none, .none⟩

/-- **`read_cfg` returns what the lines say.** -/
theorem readCfg_run (hfile : 255 ∉ file) (out : CfgOut) :
    readCfg (some file) out = .ok (0, ((cfgReading cfgKeys).run file .none).out) := by
  have hloop := readLoop_readsKeys.run (r := .none) hfile (Nat.lt_succ_self _)
  rw [CfgParsed.none] at hloop
  simp only [readCfg, hloop, bind, Except.bind]
  rfl

/-- **`read_srv_cfg` returns the port they say.** -/
theorem readSrvCfg_run (hfile : 255 ∉ file) : readSrvCfg (some file) =
    .ok (0, ((cfgReading srvKeys).run file .none).commPort.getD defaultPort) := by
  have hloop := readSrvLoop_readsKeys.run (r := .none) hfile (Nat.lt_succ_self _)
  rw [CfgParsed.none] at hloop
  simp only [readSrvCfg, hloop, bind, Except.bind]
  rfl

end Rds
