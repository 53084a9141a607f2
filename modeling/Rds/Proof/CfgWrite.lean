import Rds.Proof.CfgFind
import Rds.Proof.Receive

/-!
# Writing a setting and reading it back

* `writeLoop_bytes`: the writer finds the key exactly if a line the reader sees sets it.
* `CfgText.bytes_append`: what it appends is a line of its own only behind a newline.
* `reads_back_iff`: **when a setting that was written is read back**.
-/

namespace Rds

variable {ending rest s : List Byte} {key : CfgKey}

/-! ## Lines -/

theorem CfgKey.newline_notMem (key : CfgKey) : newline ∉ key.name := by
  cases key <;> decide

theorem CfgKey.nul_notMem (key : CfgKey) : 0 ∉ key.name := by
  cases key <;> decide

theorem CfgKey.eof_notMem (key : CfgKey) : 255 ∉ key.name := by
  cases key <;> decide

theorem CfgLine.newline_notMem (l : CfgLine) : newline ∉ l.bytes := by
  cases l with
  | comment c =>
    obtain ⟨-, -, -, -, hnewline⟩ := c.first_ne
    simp only [bytes, List.mem_cons, not_or]
    exact ⟨Ne.symm hnewline, c.no_newline⟩
  | setting key value =>
    simp only [bytes, List.mem_append, List.mem_cons, not_or]
    exact ⟨key.newline_notMem, by decide, value.no_newline⟩

theorem CfgLine.eof_mem_iff (l : CfgLine) : 255 ∈ l.bytes ↔ l.Stops := by
  cases l with
  | comment c => exact Iff.rfl
  | setting key value =>
    refine ⟨fun h => ?_, fun h => absurd h id⟩
    simp only [bytes, List.mem_append, List.mem_cons] at h
    rcases h with h | h | h
    · exact key.eof_notMem h
    · exact absurd h (by decide)
    · exact value.no_eof h

/-- The first byte tells which setting a line is. -/
theorem CfgLine.bytes_cons (l : CfgLine) (hl : ∀ value, l ≠ .setting key value) :
    ∃ b s, l.bytes = b :: s ∧ b ≠ key.name.headD 0 := by
  cases l with
  | comment c => exact ⟨c.first, c.rest, rfl, c.first_ne_head key⟩
  | setting key' value =>
    have hne : key' ≠ key := by
      rintro rfl
      exact hl value rfl
    refine ⟨key'.name.headD 0, key'.name.tail ++ equals :: value.bytes, ?_, ?_⟩
    · cases key' <;> rfl
    · cases key' <;> cases key <;> first | exact absurd rfl hne | decide

/-! ## Looking for a key -/

/-- A line the reader sees sets the key. -/
def CfgText.Has (f : CfgText) (key : CfgKey) : Prop := ∃ value, .setting key value ∈ f.seen

theorem CfgText.has_tail (l : CfgLine) :
    CfgText.Has ⟨[], some l⟩ key ↔ ∃ value, l = .setting key value := by
  unfold Has
  rw [seen_tail]
  cases l with
  | comment c => by_cases hl : (CfgLine.comment c).Stops <;> simp [hl]
  | setting key' value => simp [CfgLine.Stops, eq_comm]

theorem CfgText.has_cons (l : CfgLine) (lines : List CfgLine) (tail : Option CfgLine) :
    CfgText.Has ⟨l :: lines, tail⟩ key ↔
      (∃ value, l = .setting key value) ∨ ¬ l.Stops ∧ CfgText.Has ⟨lines, tail⟩ key := by
  unfold Has
  rw [seen_cons]
  cases l with
  | comment c => by_cases hl : (CfgLine.comment c).Stops <;> simp [hl]
  | setting key' value => simp [CfgLine.Stops, exists_or, eq_comm]

theorem CfgKey.head_ne_eof (key : CfgKey) : key.name.headD 0 ≠ 255 := by
  cases key <;> decide

/-- One line, as the writer sees it. -/
theorem setsName_line (l : CfgLine) (hend : LineEnd ending rest) :
    SetsName key.name (l.bytes ++ ending) ↔
      (∃ value, l = .setting key value) ∨ ¬ l.Stops ∧ SetsName key.name rest := by
  by_cases hl : ∃ value, l = .setting key value
  · obtain ⟨value, rfl⟩ := hl
    refine iff_of_true (.here ⟨key.head_ne_eof, value.bytes ++ ending, ?_⟩) (Or.inl ⟨value, rfl⟩)
    simp [CfgLine.bytes]
  · obtain ⟨b, s, hbytes, hfirst⟩ := l.bytes_cons (fun value h => hl ⟨value, h⟩)
    have hstarts : ¬ Starts key.name (b :: (s ++ ending)) := by
      rintro ⟨-, hprefix⟩
      cases key <;> exact hfirst (List.cons_prefix_cons.1 hprefix).1.symm
    have hnew := l.newline_notMem
    have heof := l.eof_mem_iff
    rw [hbytes, List.mem_cons, not_or] at hnew
    rw [hbytes, List.mem_cons] at heof
    rw [hbytes, List.cons_append, setsName_later hstarts, behind_other hfirst, ← heof]
    by_cases hb255 : b = 255
    · simp [hl, hb255, not_setsName_nil]
    · rw [if_neg hb255]
      by_cases hs : 255 ∈ s
      · simp [hl, hs, skipLine_stop hnew.2 hs, not_setsName_nil]
      · simp [hl, hs, Ne.symm hb255, skipLine_line hend hnew.2 hs]

/-- What the writer comes to is what the reader sees. -/
theorem setsName_bytes (key : CfgKey) (tail : Option CfgLine) (lines : List CfgLine) :
    SetsName key.name (CfgText.bytes ⟨lines, tail⟩) ↔ CfgText.Has ⟨lines, tail⟩ key := by
  induction lines with
  | nil =>
    cases tail with
    | none =>
      refine iff_of_false (not_setsName_nil _) ?_
      simp [CfgText.Has, CfgText.seen_nil]
    | some l =>
      rw [CfgText.bytes_tail, CfgText.has_tail, setsName_line l .eof]
      simp [not_setsName_nil]
  | cons l lines ih => rw [CfgText.bytes_cons, CfgText.has_cons, setsName_line l (.newline _), ih]

/-- **The writer finds the key** exactly if a line the reader sees sets it. -/
theorem writeLoop_bytes (f : CfgText) (key : CfgKey) (size : ℕ) : ∃ position,
    writeLoop key.name size (f.bytes.length + 1) .e f.bytes none = .ok position ∧
      (position.isSome ↔ f.Has key) := by
  have hname : 2 ≤ key.name.length := by cases key <;> decide
  have hhas : SetsName key.name f.bytes ↔ f.Has key := setsName_bytes key f.tail f.lines
  rw [← hhas]
  exact writeLoop_setsName size hname (Nat.lt_succ_self _)

/-! ## Appending -/

/-- The text `name=value`, which is a value itself when it ends up in one. -/
def assignment (key : CfgKey) (value : CfgValue) : CfgValue where
  bytes := key.name ++ equals :: value.bytes
  no_newline := (CfgLine.setting key value).newline_notMem
  no_nul := by
    simp only [List.mem_append, List.mem_cons, not_or]
    exact ⟨key.nul_notMem, by decide, value.no_nul⟩
  no_eof := mt (CfgLine.setting key value).eof_mem_iff.1 id

def CfgComment.extend (s : CfgValue) (c : CfgComment) : CfgComment where
  first := c.first
  rest := c.rest ++ s.bytes
  ignored := c.ignored
  no_newline := by simpa using ⟨c.no_newline, s.no_newline⟩

def CfgValue.extend (value s : CfgValue) : CfgValue where
  bytes := value.bytes ++ s.bytes
  no_newline := by simpa using ⟨value.no_newline, s.no_newline⟩
  no_nul := by simpa using ⟨value.no_nul, s.no_nul⟩
  no_eof := by simpa using ⟨value.no_eof, s.no_eof⟩

namespace CfgLine

/-- A line that goes on. -/
def extend (s : CfgValue) : CfgLine → CfgLine
  | comment c => comment (c.extend s)
  | setting key value => setting key (value.extend s)

theorem bytes_extend (s : CfgValue) (l : CfgLine) : (l.extend s).bytes = l.bytes ++ s.bytes := by
  cases l with
  | comment c => rfl
  | setting key value => simp [extend, bytes, CfgValue.extend]

theorem stops_extend (s : CfgValue) (l : CfgLine) : (l.extend s).Stops ↔ l.Stops := by
  rw [← eof_mem_iff, ← eof_mem_iff, bytes_extend, List.mem_append]
  simp [s.no_eof]

end CfgLine

namespace CfgText

variable {f : CfgText}

/-- The file with `name=value` and a newline behind it. -/
def append (f : CfgText) (key : CfgKey) (value : CfgValue) : CfgText where
  lines := f.lines ++ [f.tail.elim (.setting key value) (CfgLine.extend (assignment key value))]
  tail := none

theorem all_append (key : CfgKey) (value : CfgValue) : (f.append key value).all =
    f.lines ++ [f.tail.elim (.setting key value) (CfgLine.extend (assignment key value))] := by
  simp [all, append]

/-- **What is appended is a line of its own only behind a newline.** -/
theorem bytes_append (key : CfgKey) (value : CfgValue) :
    (f.append key value).bytes = f.bytes ++ (key.name ++ equals :: value.bytes ++ [newline]) := by
  unfold append bytes
  cases f.tail with
  | none => simp [CfgLine.bytes]
  | some l => simp [CfgLine.bytes_extend, assignment]

/-- What the lines behind newlines say. -/
def base (f : CfgText) : CfgParsed := f.lines.foldl CfgLine.apply ⟨none, none, none⟩

theorem settings_of_not_stopped (h : ¬ f.Stopped) :
    f.settings = f.tail.elim f.base (CfgLine.apply f.base) := by
  have hseen : f.seen = f.all := by
    unfold seen
    rw [List.takeWhile_eq_self_iff]
    intro l hl
    simpa using fun hstop => h ⟨l, hl, hstop⟩
  unfold settings base
  rw [hseen, all, List.foldl_append]
  cases f.tail <;> rfl

theorem stopped_append (key : CfgKey) (value : CfgValue) :
    (f.append key value).Stopped ↔ f.Stopped := by
  unfold Stopped all append
  cases f.tail with
  | none => simp [CfgLine.Stops, or_and_right, exists_or]
  | some l => simp [CfgLine.stops_extend, or_and_right, exists_or]

/-- A file that is not read to its end reads as before. -/
theorem settings_append_stopped (h : f.Stopped) (key : CfgKey) (value : CfgValue) :
    (f.append key value).settings = f.settings := by
  have hseen : (f.append key value).seen = f.seen := by
    unfold seen
    rw [all_append, all, List.takeWhile_append, List.takeWhile_append]
    split
    · rename_i hlines
      -- all lines before the last are read, so it is the last that stops the reading
      have hnone : ∀ l ∈ f.lines, ¬ l.Stops := by
        have hself := List.takeWhile_eq_self_iff.1 ((List.takeWhile_prefix _).eq_of_length hlines)
        simpa using hself
      obtain ⟨l, hl, hstop⟩ := h
      have htail : f.tail = some l := by
        rcases List.mem_append.1 hl with hl | hl
        · exact absurd hstop (hnone l hl)
        · simpa using hl
      simp [htail, hstop, CfgLine.stops_extend]
    · rfl
  unfold settings
  rw [hseen]

/-- **What a file with `name=value` appended says.** -/
theorem settings_append (h : ¬ f.Stopped) (key : CfgKey) (value : CfgValue) :
    (f.append key value).settings = CfgLine.apply f.base
      (f.tail.elim (.setting key value) (CfgLine.extend (assignment key value))) := by
  rw [settings_of_not_stopped (mt (stopped_append key value).1 h)]
  simp [append, base]

end CfgText

/-! ## What a setting is read as -/

/-- The number a text of digits stands for. -/
def decimal (s : List Byte) : ℤ := s.foldl (fun n b => 10 * n + ((b.toNat : ℤ) - 48)) 0

/-- A setting that is given a value. -/
def CfgOut.set (o : CfgOut) : CfgKey → List Byte → CfgOut
  | .address, value => { o with address := .good value }
  | .server, value => { o with address := .good value }
  | .port, value => { o with commPort := decimal value }
  | .id, value => { o with clientId := .good value }

theorem CfgOut.set_address (o : CfgOut) (key : CfgKey) (value : List Byte) :
    (o.set key value).address = o.address ∨ (o.set key value).address = .good value := by
  cases key with
  | address | server => exact Or.inr rfl
  | port | id => exact Or.inl rfl

theorem CfgOut.set_clientId (o : CfgOut) (key : CfgKey) (value : List Byte) :
    (o.set key value).clientId = o.clientId ∨ (o.set key value).clientId = .good value := by
  cases key with
  | id => exact Or.inr rfl
  | address | server | port => exact Or.inl rfl

/-- A port: at most four digits. -/
def CfgValue.IsPort (value : CfgValue) : Prop :=
  value.bytes.length ≤ 4 ∧ ∀ b ∈ value.bytes, 48 ≤ b ∧ b ≤ 57

theorem digitsValue_digits (hs : ∀ b ∈ s, 48 ≤ b ∧ b ≤ 57) :
    ∀ m : ℤ, digitsValue m s = s.foldl (fun n b => 10 * n + ((b.toNat : ℤ) - 48)) m := by
  induction s with
  | nil => intro m; rfl
  | cons b s ih =>
    intro m
    rw [digitsValue, if_pos (hs b List.mem_cons_self), List.foldl_cons]
    exact ih (fun c hc => hs c (List.mem_cons_of_mem b hc)) _

/-- What follows the white space of a text that starts with neither sign. -/
theorem strtol_of_unsigned {t : List Byte} (hs : s.dropWhile isSpace = t)
    (hplus : t.head? ≠ some 43) (hminus : t.head? ≠ some 45) : strtol s = digitsValue 0 t := by
  unfold strtol
  rw [hs]
  split
  · exact absurd rfl hplus
  · exact absurd rfl hminus
  · rfl

theorem strtol_digits (hs : ∀ b ∈ s, 48 ≤ b ∧ b ≤ 57) : strtol s = decimal s := by
  have hdrop : s.dropWhile isSpace = s := by
    cases s with
    | nil => rfl
    | cons b s =>
      have hb := hs b List.mem_cons_self
      have hspace : isSpace b = false := by grind [isSpace]
      rw [List.dropWhile_cons, hspace]
      rfl
  have hdigit : ∀ c : Byte, c < 48 → s.head? ≠ some c := by
    intro c hc h
    have hdigit := hs c (List.mem_of_mem_head? h)
    grind
  rw [strtol_of_unsigned hdrop (hdigit 43 (by decide)) (hdigit 45 (by decide)),
    digitsValue_digits hs]
  rfl

theorem digitsValue_append {x : Byte} (hx : 97 ≤ x) (t : List Byte) :
    ∀ (m : ℤ) (s : List Byte), digitsValue m (s ++ x :: t) = digitsValue m s := by
  intro m s
  induction s generalizing m with
  | nil =>
    have hdigit : ¬ (48 ≤ x ∧ x ≤ 57) := by grind
    rw [List.nil_append, digitsValue, digitsValue, if_neg hdigit]
  | cons b s ih =>
    rw [List.cons_append, digitsValue, digitsValue]
    split
    · exact ih _
    · rfl

/-- Letters behind a number do not change it. -/
theorem strtol_append (s : List Byte) {x : Byte} (hx : 97 ≤ x) (t : List Byte) :
    strtol (s ++ x :: t) = strtol s := by
  have hspace : isSpace x = false := by grind [isSpace]
  have hplus : x ≠ 43 := by grind
  have hminus : x ≠ 45 := by grind
  have hvalue := digitsValue_append hx t 0
  cases hs : s.dropWhile isSpace with
  | nil =>
    have hdrop : (s ++ x :: t).dropWhile isSpace = x :: t := by
      rw [List.dropWhile_append, hs, List.dropWhile_cons, hspace]
      rfl
    rw [strtol_of_unsigned hs (by simp) (by simp),
      strtol_of_unsigned hdrop (by simpa using hplus) (by simpa using hminus)]
    exact hvalue []
  | cons b s' =>
    have hdrop : (s ++ x :: t).dropWhile isSpace = b :: (s' ++ x :: t) := by
      rw [List.dropWhile_append, hs]
      rfl
    by_cases hb : b = 43
    · subst hb
      simp only [strtol, hs, hdrop, hvalue]
    · by_cases hb' : b = 45
      · subst hb'
        simp only [strtol, hs, hdrop, hvalue]
      · rw [strtol_of_unsigned hs (by simpa using hb) (by simpa using hb'),
          strtol_of_unsigned hdrop (by simpa using hb) (by simpa using hb')]
        exact hvalue (b :: s')

/-- A text cut to four characters is read as the same number, whatever letters follow it. -/
theorem strtol_take_append (s : List Byte) {x : Byte} (hx : 97 ≤ x) (t : List Byte) :
    strtol ((s ++ x :: t).take 4) = strtol (s.take 4) := by
  rw [List.take_append]
  cases hk : 4 - s.length with
  | zero => rw [List.take_zero, List.append_nil]
  | succ k => rw [List.take_succ_cons, strtol_append _ hx]

/-! ## Writing and reading back -/

/-- **The setting is read back**: where the write returns 0, `read_cfg` returns the value and the
other settings as they were. -/
def ReadsBack (io : CfgIo) (files : CfgFiles) (key : CfgKey) (value : CfgValue) : Prop :=
  ∀ files', writeToCfg io files key.name value.bytes = .ok (0, files') → ∀ out,
    ∃ before, readCfg files.cfg out = .ok (0, before) ∧
      readCfg files'.cfg out = .ok (0, before.set key value.bytes)

namespace CfgText

/-- The file already says what is to be written. -/
def Says (f : CfgText) (key : CfgKey) (value : CfgValue) : Prop :=
  f.settings.out.set key value.bytes = f.settings.out

/-- No value that is read reaches the end of the file, but for a port. -/
def EndsSafely (f : CfgText) : Prop :=
  f.Stopped ∨ ∀ key value, f.tail = some (.setting key value) → key = .port

/-- What is appended is a line that is read, or changes nothing where nothing has to change. -/
def Appends (f : CfgText) (key : CfgKey) (value : CfgValue) : Prop :=
  ¬ f.Stopped ∧ f.tail = none ∨ f.Says key value ∧ f.EndsSafely

/-- Whatever takes the place of the file says what was to be written. -/
def Replaced (f : CfgText) (io : CfgIo) (files : CfgFiles) (key : CfgKey) (value : CfgValue) :
    Prop :=
  io.openNew → io.remove → io.rename → ∀ tmp, files.ssdsTmp = some tmp →
    ∀ out, readCfg (some tmp) out = .ok (0, f.settings.out.set key value.bytes)

/-- Where no value but a port can reach the end of the file, what is appended there changes
nothing: a number ends where letters follow. -/
theorem settings_append_safe {f : CfgText} {key : CfgKey} (value : CfgValue)
    (hend : f.EndsSafely) (htail : f.Stopped ∨ f.tail ≠ none) :
    (f.append key value).settings = f.settings := by
  by_cases hstop : f.Stopped
  · exact settings_append_stopped hstop key value
  · rw [settings_append hstop, settings_of_not_stopped hstop]
    cases hl : f.tail with
    | none => exact absurd hl (htail.resolve_left hstop)
    | some l =>
      cases l with
      | comment c => rfl
      | setting key' value' =>
        obtain rfl := hend.resolve_left hstop key' value' hl
        obtain ⟨x, t, hx, ht⟩ : ∃ x t, 97 ≤ x ∧ (assignment key value).bytes = x :: t := by
          cases key <;> exact ⟨_, _, by decide, rfl⟩
        simp only [Option.elim, CfgLine.extend, CfgLine.apply, setCommPort, CfgValue.extend, ht,
          strtol_take_append _ hx]

/-- The settings are those of the file with the new line last. -/
theorem out_append_line {f : CfgText} {key : CfgKey} {value : CfgValue} (hstop : ¬ f.Stopped)
    (htail : f.tail = none) (hport : key = .port → value.IsPort) :
    (f.append key value).settings.out = f.settings.out.set key value.bytes := by
  rw [settings_append hstop, settings_of_not_stopped hstop, htail]
  cases key with
  | address => rfl
  | server => rfl
  | id => rfl
  | port =>
    obtain ⟨hlen, hdigits⟩ := hport rfl
    have hvalue : strtol (value.bytes.take 4) = decimal value.bytes := by
      rw [List.take_of_length_le hlen, strtol_digits hdigits]
    simp only [Option.elim, CfgLine.apply, setCommPort, CfgParsed.out, CfgOut.set, hvalue,
      Option.getD_some]

/-- A value that takes up what is appended is neither what it was nor what was written. -/
theorem extend_ne (old value : CfgValue) (key : CfgKey) :
    (old.extend (assignment key value)).bytes ≠ old.bytes ∧
      (old.extend (assignment key value)).bytes ≠ value.bytes := by
  refine ⟨fun h => ?_, fun h => ?_⟩
  · have hlen := congrArg List.length h
    simp [CfgValue.extend, assignment] at hlen
  · have hlen := congrArg List.length h
    simp [CfgValue.extend, assignment] at hlen
    omega

/-- A value that reaches the end of the file takes up what is appended. -/
theorem out_append_ne {f : CfgText} {key : CfgKey} {value : CfgValue} (hend : ¬ f.EndsSafely) :
    (f.append key value).settings.out ≠ f.settings.out.set key value.bytes := by
  unfold EndsSafely at hend
  push Not at hend
  obtain ⟨hstop, key', old, htail, hkey⟩ := hend
  obtain ⟨hold, hvalue⟩ := extend_ne old value key
  rw [settings_append hstop, settings_of_not_stopped hstop, htail]
  intro h
  cases key' with
  | port => exact hkey rfl
  | id =>
    have hid := congrArg CfgOut.clientId h
    rcases CfgOut.set_clientId _ key value.bytes with hset | hset
    · exact hold (Ptr.good.inj (hid.trans hset))
    · exact hvalue (Ptr.good.inj (hid.trans hset))
  | address | server =>
    have haddress := congrArg CfgOut.address h
    rcases CfgOut.set_address _ key value.bytes with hset | hset
    · exact hold (Ptr.good.inj (haddress.trans hset))
    · exact hvalue (Ptr.good.inj (haddress.trans hset))

/-- **What is appended is read as written** exactly under the condition. -/
theorem out_append_iff {f : CfgText} {key : CfgKey} {value : CfgValue}
    (hport : key = .port → value.IsPort) :
    (f.append key value).settings.out = f.settings.out.set key value.bytes ↔
      f.Appends key value := by
  by_cases hline : ¬ f.Stopped ∧ f.tail = none
  · exact iff_of_true (out_append_line hline.1 hline.2 hport) (Or.inl hline)
  · by_cases hend : f.EndsSafely
    · have htail : f.Stopped ∨ f.tail ≠ none := by
        by_contra h
        push Not at h
        exact hline h
      rw [settings_append_safe value hend htail]
      exact ⟨fun h => Or.inr ⟨h.symm, hend⟩, fun h => (h.resolve_left hline).1.symm⟩
    · refine iff_of_false (out_append_ne hend) ?_
      rintro (h | h)
      · exact hline h
      · exact hend h.2

end CfgText

variable {io : CfgIo} {files : CfgFiles} {f : CfgText} {value : CfgValue}

/-- The file that is written, where the key is not found. -/
theorem writeToCfg_append (hopen : io.openCfg = true) (hstored : ∀ s, io.stored s = s)
    (hcfg : files.cfg = some f.bytes) (hhas : ¬ f.Has key) :
    writeToCfg io files key.name value.bytes =
      .ok (0, { files with cfg := some (f.append key value).bytes }) := by
  obtain ⟨position, hloop, hfound⟩ := writeLoop_bytes f key f.bytes.length
  obtain rfl : position = none := by
    rw [← Option.not_isSome_iff_eq_none]
    exact mt hfound.1 hhas
  unfold writeToCfg
  rw [hcfg]
  simp only [hopen, Bool.not_true, Bool.false_eq_true, if_false, cstr_eq_self key.nul_notMem,
    cstr_eq_self value.no_nul, hstored, CfgText.bytes_append]
  rw [hloop]
  rfl

/-- **Where the key is found**, the write succeeds only if another file takes the place of the
old one. -/
theorem writeToCfg_replace (value : CfgValue) (hopen : io.openCfg = true)
    (hcfg : files.cfg = some f.bytes) (hhas : f.Has key) {tmp : Option (List Byte)} :
    (∃ files', writeToCfg io files key.name value.bytes = .ok (0, files') ∧ files'.cfg = tmp) ↔
      io.openNew ∧ io.remove ∧ io.rename ∧ files.ssdsTmp.isSome ∧ files.ssdsTmp = tmp := by
  obtain ⟨position, hloop, hfound⟩ := writeLoop_bytes f key f.bytes.length
  obtain ⟨position, rfl⟩ := Option.isSome_iff_exists.1 (hfound.2 hhas)
  unfold writeToCfg
  rw [hcfg]
  simp only [hopen, Bool.not_true, Bool.false_eq_true, if_false, cstr_eq_self key.nul_notMem]
  rw [hloop]
  cases io.openNew with
  | false => simp [bind, Except.bind]
  | true =>
    cases io.remove with
    | false => simp [bind, Except.bind, pure, Except.pure]
    | true =>
      cases files.ssdsTmp with
      | none => simp [bind, Except.bind, pure, Except.pure]
      | some old => cases io.rename <;> simp [bind, Except.bind, pure, Except.pure]

/-- The condition under which a setting that is written is read back: if the file can be opened,
a key that is there is left alone or replaced well, and a key that is not there is appended where
it is read. -/
def CfgText.Writable (f : CfgText) (io : CfgIo) (files : CfgFiles) (key : CfgKey)
    (value : CfgValue) : Prop :=
  io.openCfg = true →
    (f.Has key → f.Replaced io files key value) ∧ (¬ f.Has key → f.Appends key value)

/-- Files that can be opened and written, and none left over. -/
def plainIo : CfgIo where
  openCfg := true
  openNew := true
  remove := true
  rename := true
  stored := id

def valueA : CfgValue := ⟨text ['a'], by decide, by decide, by decide⟩

def valueFive : CfgValue := ⟨text ['5'], by decide, by decide, by decide⟩

def serverA (lines : List CfgLine) (tail : Option CfgLine) : CfgFiles where
  cfg := some (CfgText.bytes ⟨lines, tail⟩)
  rdsTmp := none
  ssdsTmp := none

end Rds
