import Rds.Proof.CfgWrite

/-!
# What a write loses

Where the writer finds the name, another file takes the place of the old one, and otherwise a line
goes behind it.

* `fileLines_behind`: what goes behind a file goes on with its last line.
* `lossless_iff`: **when a write loses nothing**.
-/

namespace Rds

variable {file name : List Byte}

/-! ## The lines of the file -/

/-- The text behind the last newline. -/
def lastLine (file : List Byte) : List Byte := (fileLines file).getLastD []

theorem lastLine_of_notMem (hnew : newline ∉ file) : lastLine file = file := by
  rw [lastLine, fileLines_last hnew]
  rfl

theorem lastLine_append {last : List Byte} (hnew : newline ∉ last) (before : List Byte) :
    lastLine (before ++ newline :: last) = last := by
  rw [lastLine, fileLines_newline, fileLines_last hnew, List.getLastD_concat]

/-- Every file ends with a line. -/
theorem exists_last (file : List Byte) :
    newline ∉ file ∨ ∃ before last, file = before ++ newline :: last ∧ newline ∉ last := by
  by_cases hmem : newline ∈ file
  · obtain ⟨s, t, hfile, hnew⟩ := List.eq_append_cons_of_mem (List.mem_reverse.2 hmem)
    have hfile' : file = t.reverse ++ newline :: s.reverse := by
      rw [← List.reverse_reverse file, hfile]
      simp
    exact Or.inr ⟨t.reverse, s.reverse, hfile', mt List.mem_reverse.1 hnew⟩
  · exact Or.inl hmem

theorem newline_notMem_lastLine (file : List Byte) : newline ∉ lastLine file := by
  obtain hnew | ⟨before, last, rfl, hnew⟩ := exists_last file
  · rwa [lastLine_of_notMem hnew]
  · rwa [lastLine_append hnew]

/-- **What goes behind a file** goes on with its last line. -/
theorem fileLines_behind (file stored : List Byte) : fileLines (file ++ stored) =
    (fileLines file).dropLast ++ fileLines (lastLine file ++ stored) := by
  obtain hnew | ⟨before, last, rfl, hnew⟩ := exists_last file
  · rw [lastLine_of_notMem hnew, fileLines_last hnew]
    rfl
  · rw [lastLine_append hnew, fileLines_newline, fileLines_last hnew, List.dropLast_concat,
      List.append_assoc, List.cons_append, fileLines_newline]

/-! ## Failed and successful writes -/

/-- The line `name=value`. -/
def settingLine (name value : List Byte) : List Byte := cstr name ++ equals :: cstr value

/-- **A write loses nothing**: if it fails the file is what it was, and if it succeeds the file has
the line. -/
def Lossless (io : CfgIo) (files : CfgFiles) (name value : List Byte) : Prop :=
  ∀ rc files', writeToCfg io files name value = .ok (rc, files') →
    (rc ≠ 0 → files'.cfg = files.cfg) ∧
      (rc = 0 → ∃ content, files'.cfg = some content ∧ settingLine name value ∈ fileLines content)

/-- If the old file is removed, one that has the line is there under the other name and takes its
place. -/
def ReplacesWell (io : CfgIo) (files : CfgFiles) (line : List Byte) : Prop :=
  io.openNew → io.remove → io.rename ∧ ∃ tmp, files.ssdsTmp = some tmp ∧ line ∈ fileLines tmp

/-- The line is there already, or is one behind the last line of the file with what is stored of
it. -/
def AppendsLine (io : CfgIo) (file line : List Byte) : Prop :=
  line ∈ (fileLines file).dropLast ∨
    line ∈ fileLines (lastLine file ++ io.stored (line ++ [newline]))

variable {io : CfgIo} {files : CfgFiles} {value line : List Byte}

/-- A line that is stored whole is one behind a newline, or at the start of an empty file. -/
theorem appendsLine_iff (hstored : ∀ s, io.stored s = s) (hline : line ≠ [])
    (hnew : newline ∉ line) : AppendsLine io file line ↔
      line ∈ (fileLines file).dropLast ∨ lastLine file = [] := by
  have hlast := newline_notMem_lastLine file
  have hlines : fileLines (lastLine file ++ (line ++ [newline])) = [lastLine file ++ line, []] := by
    rw [← List.append_assoc, fileLines_append (by simp [hlast, hnew])]
    rfl
  unfold AppendsLine
  rw [hstored, hlines]
  simp [hline]

theorem lossless_closed (value : List Byte) (hopen : io.openCfg = false)
    (hcfg : files.cfg = some file) : Lossless io files name value := by
  intro rc files' hwrite
  unfold writeToCfg at hwrite
  simp only [hcfg, hopen, Bool.not_false, if_true] at hwrite
  cases hwrite
  exact ⟨fun _ => rfl, fun h => absurd h (by decide)⟩

/-- **Where the name is found**, the file is lost unless another one is there. -/
theorem lossless_replace (value : List Byte) (hopen : io.openCfg = true)
    (hcfg : files.cfg = some file) (hname : 2 ≤ (cstr name).length)
    (hsets : SetsName (cstr name) file) :
    Lossless io files name value ↔ ReplacesWell io files (settingLine name value) := by
  obtain ⟨position, hloop, hfound⟩ := writeLoop_setsName file.length hname
    (Nat.lt_succ_self file.length)
  obtain ⟨position, rfl⟩ := Option.isSome_iff_exists.1 (hfound.2 hsets)
  unfold Lossless writeToCfg ReplacesWell
  rw [hcfg]
  simp only [hopen, Bool.not_true, Bool.false_eq_true, if_false]
  rw [hloop]
  cases io.openNew with
  | false => simp [bind, Except.bind] -- no return from `fwrite` to `NULL`
  | true =>
    cases io.remove with
    | false => simp [bind, Except.bind, pure, Except.pure]
    | true =>
      -- the old file is gone, and what was cloned from it has another name
      cases files.ssdsTmp with
      | none => simp [bind, Except.bind, pure, Except.pure]
      | some tmp => cases io.rename <;> simp [bind, Except.bind, pure, Except.pure]

/-- **Where it is not**, the file has the line if it has been there or has been stored. -/
theorem lossless_append (value : List Byte) (hopen : io.openCfg = true)
    (hcfg : files.cfg = some file) (hname : 2 ≤ (cstr name).length)
    (hsets : ¬ SetsName (cstr name) file) :
    Lossless io files name value ↔ AppendsLine io file (settingLine name value) := by
  obtain ⟨position, hloop, hfound⟩ := writeLoop_setsName file.length hname
    (Nat.lt_succ_self file.length)
  obtain rfl : position = none := by
    rw [← Option.not_isSome_iff_eq_none]
    exact mt hfound.1 hsets
  unfold Lossless writeToCfg AppendsLine
  rw [hcfg, ← List.mem_append, ← fileLines_behind]
  simp only [hopen, Bool.not_true, Bool.false_eq_true, if_false]
  rw [hloop]
  simp [bind, Except.bind, pure, Except.pure, settingLine]

/-- **When a write loses nothing**: if the file can be opened, a name that is set there is replaced
by a file that has the line, and a name that is not is appended in one. -/
theorem lossless_iff (io : CfgIo) (files : CfgFiles) (name value : List Byte)
    (hcfg : files.cfg = some file) (hname : 2 ≤ (cstr name).length) :
    Lossless io files name value ↔ (io.openCfg = true →
      (SetsName (cstr name) file → ReplacesWell io files (settingLine name value)) ∧
        (¬ SetsName (cstr name) file → AppendsLine io file (settingLine name value))) := by
  cases hopen : io.openCfg with
  | false => exact iff_of_true (lossless_closed value hopen hcfg) nofun
  | true =>
    by_cases hsets : SetsName (cstr name) file
    · rw [lossless_replace value hopen hcfg hname hsets]
      simp [hsets]
    · rw [lossless_append value hopen hcfg hname hsets]
      simp [hsets]

/-- A configuration file, and no other. -/
def onlyCfg (file : List Byte) : CfgFiles where
  cfg := some file
  rdsTmp := none
  ssdsTmp := none

/-- A setting that is new. -/
theorem lossless_iff_new :
    Lossless plainIo (onlyCfg (text ['p', 'o', 'r', 't', '=', '1', '\n'])) (text ['i', 'd'])
      (text ['7']) := by
  refine (lossless_iff plainIo (onlyCfg (text ['p', 'o', 'r', 't', '=', '1', '\n']))
    (text ['i', 'd']) (text ['7']) rfl (by decide)).2 (fun _ => ⟨fun hsets => ?_, fun _ => ?_⟩)
  · cases hsets with
    | here hstarts => exact absurd hstarts.2 (by decide)
    | later hsets => exact absurd hsets (not_setsName_nil _)
  · exact (appendsLine_iff (fun _ => rfl) (by decide) (by decide)).2 (Or.inr (by decide))

/-- **A setting that is changed**: the file is removed, and there is no other to take its place. -/
theorem lossless_fails :
    ¬ Lossless plainIo (onlyCfg (text ['i', 'd', '=', '5', '\n'])) (text ['i', 'd'])
      (text ['7']) := by
  intro h
  have hlost := (h 1 _ rfl).1 (by decide)
  cases hlost

end Rds
