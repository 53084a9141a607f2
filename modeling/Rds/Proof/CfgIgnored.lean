import Rds.Proof.CfgGrammar

/-!
# Lines that are ignored

A line that is no setting is deleted from a configuration file. Whether the readers notice
depends on where they stand: at the start of the line or in the middle of a window, and on whether
the line holds the whole of its window.

* `run_delete`: what is read of the file with and without the line.
* `place_of_undisturbed`: a place that the line moves is noticed in what may follow.
* `ignored_iff`: **when a line can be deleted**, whatever follows it.
-/

namespace Rds

open LineScan

variable {keys : List CfgKey} {before line : List Byte} {r : CfgParsed}

/-- A line that is a setting. -/
def IsSetting (line : List Byte) : Prop := ∃ key : CfgKey, key.label <+: line

instance (line : List Byte) : Decidable (IsSetting line) :=
  decidable_of_iff (∃ key ∈ cfgKeys, key.label <+: line) <| by
    constructor
    · rintro ⟨key, -, h⟩
      exact ⟨key, h⟩
    · rintro ⟨key, h⟩
      exact ⟨key, by cases key <;> decide, h⟩

/-- A line that is no setting says nothing. -/
theorem lineEffect_ignored (hset : ¬ IsSetting line) (keys : List CfgKey) (r : CfgParsed) :
    lineEffect keys (line ++ [newline]) r = r := by
  unfold lineEffect
  cases (line ++ [newline]).head?.bind (keyOf keys) with
  | none => rfl
  | some key =>
    have hstarts : ¬ key.label <+: line ++ [newline] := by
      rintro h
      rcases List.prefix_concat_iff.1 h with heq | h
      · exact key.newline_notMem_label (heq ▸ by simp)
      · exact hset ⟨key, h⟩
    simp only [if_neg hstarts]

/-- Some lines, none of them cut off. -/
def WholeLines (s : List Byte) : Prop := s = [] ∨ ∃ t, s = t ++ [newline]

theorem WholeLines.whole (h : WholeLines before) (keys : List CfgKey) :
    (cfgScanner keys).Whole before := by
  rcases h with h | ⟨t, h⟩
  · rw [h]
    exact fun b hb => by cases hb
  · rw [h]
    exact Scanner.whole_append_line t []

/-- **What is read of a file with the line**, beside what is read without it. -/
theorem run_delete (hbefore : WholeLines before) (hline : newline ∉ line)
    (hset : ¬ IsSetting line) (keys : List CfgKey) (rest : List Byte) (r : CfgParsed) :
    (cfgReading keys).run (before ++ (line ++ newline :: rest)) r =
        (cfgReading keys).run ((cfgScanner keys).resume
          ((cfgScanner keys).place (before ++ (line ++ [newline]))) rest)
          ((cfgReading keys).run before r) ∧
      (cfgReading keys).run (before ++ rest) r =
        (cfgReading keys).run ((cfgScanner keys).resume ((cfgScanner keys).place before) rest)
          ((cfgReading keys).run before r) :=
  ⟨(cfgReading keys).run_skip (hbefore.whole keys) hline (lineEffect_ignored hset keys) rest r,
    (cfgReading keys).run_append (hbefore.whole keys) rest r⟩

/-- **A place that is moved is noticed** in something that may follow, if there is always a line
that makes a difference. -/
theorem place_of_undisturbed {β : Type} (keys : List CfgKey) (g : CfgParsed → β)
    (hbefore : WholeLines before) (hline : newline ∉ line) (hset : ¬ IsSetting line)
    (hmark : ∀ r, ∃ l : CfgLine, 255 ∉ l.bytes ∧ g (l.applyOf keys r) ≠ g r)
    (h : ∀ rest, 255 ∉ rest → g ((cfgReading keys).run (before ++ (line ++ newline :: rest)) r) =
      g ((cfgReading keys).run (before ++ rest) r)) :
    (cfgScanner keys).place before = none ∧ (cfgScanner keys).Fits line := by
  rw [← Scanner.place_append_line_iff (S := cfgScanner keys) hline before]
  by_contra hmoved
  obtain ⟨l, heof, hdiffers⟩ := hmark ((cfgReading keys).run before r)
  have hnl : (cfgScanner keys).newline = newline := rfl
  have hmark : (cfgScanner keys).newline ∉ l.bytes := l.newline_notMem
  -- what follows is read as the line `l` from one of the two places and as nothing from the other
  obtain ⟨rest, hchars, hsep⟩ := Scanner.resume_separates hmoved hmark
  have hrest : 255 ∉ rest := by
    intro hmem
    rcases hchars 255 hmem with heq | hmem
    · exact absurd (heq.trans hnl) (by decide)
    · exact heof hmem
  have hsame := h rest hrest
  obtain ⟨hwith, hwithout⟩ := run_delete hbefore hline hset keys rest r
  have hread : (cfgReading keys).run l.bytes ((cfgReading keys).run before r) =
      l.applyOf keys ((cfgReading keys).run before r) := by
    have hl := cfgReading_line l keys ((cfgReading keys).run before r) .eof
    rwa [List.append_nil, Reading.run_nil] at hl
  rw [hwith, hwithout] at hsame
  rw [hnl] at hsep
  rcases hsep with ⟨hp, hq⟩ | ⟨hp, hq⟩
  · rw [hp, hq, hread, Reading.run_nil] at hsame
    exact hdiffers hsame
  · rw [hp, hq, hread, Reading.run_nil] at hsame
    exact hdiffers hsame.symm

/-- **Deleting the line is not noticed**: both readers return the same without it. -/
def Undisturbed (before line rest : List Byte) : Prop :=
  (∀ out, readCfg (some (before ++ (line ++ newline :: rest))) out =
      readCfg (some (before ++ rest)) out) ∧
    readSrvCfg (some (before ++ (line ++ newline :: rest))) = readSrvCfg (some (before ++ rest))

/-- Both readers stand at the start of a line behind these lines: none of them has run into what
follows. -/
def AtLineStart (before : List Byte) : Prop :=
  (cfgScanner cfgKeys).place before = none ∧ (cfgScanner srvKeys).place before = none

/-- The line is not empty, and as long as the setting that its first character starts. -/
def HoldsWindow (line : List Byte) : Prop := (cfgScanner cfgKeys).Fits line

theorem HoldsWindow.fits_srv (h : HoldsWindow line) : (cfgScanner srvKeys).Fits line := by
  obtain ⟨b, s, heq, hle⟩ := h
  refine ⟨b, s, heq, le_trans ?_ hle⟩
  by_cases hp : b = 112
  · rw [hp]
    decide
  · have hnone : keyOf srvKeys b = none := by
      simp [keyOf, srvKeys, CfgKey.first, eq_comm (b := b), hp]
    have hpos := (cfgScanner cfgKeys).window_pos b
    simp only [cfgScanner, hnone, Option.elim] at hpos ⊢
    exact hpos

/-- An address and a port that are not the one there is. -/
theorem exists_address (r : CfgParsed) :
    ∃ l : CfgLine, 255 ∉ l.bytes ∧ (l.applyOf cfgKeys r).out ≠ r.out := by
  by_cases h : r.out.address = .good (text ['a'])
  · refine ⟨.setting .address ⟨text ['b'], by decide, by decide, by decide⟩, by decide, fun heq => ?_⟩
    have haddress : Ptr.good (text ['b']) = r.out.address := congrArg CfgOut.address heq
    rw [h] at haddress
    exact absurd haddress (by decide)
  · refine ⟨.setting .address ⟨text ['a'], by decide, by decide, by decide⟩, by decide, fun heq => ?_⟩
    exact h (congrArg CfgOut.address heq).symm

theorem exists_port (r : CfgParsed) : ∃ l : CfgLine, 255 ∉ l.bytes ∧
    (l.applyOf srvKeys r).commPort.getD defaultPort ≠ r.commPort.getD defaultPort := by
  by_cases h : r.commPort.getD defaultPort = 1
  · refine ⟨.setting .port ⟨text ['2'], by decide, by decide, by decide⟩, by decide, ?_⟩
    rw [h]
    change (2 : ℤ) ≠ 1
    decide
  · refine ⟨.setting .port ⟨text ['1'], by decide, by decide, by decide⟩, by decide, ?_⟩
    exact Ne.symm h

/-- **When a line can be deleted**, whatever follows it: if it holds its window, and none of the
lines before has run into it. -/
theorem ignored_iff (before line : List Byte) (hbefore : WholeLines before)
    (heof : 255 ∉ before ++ line) (hline : newline ∉ line) (hset : ¬ IsSetting line) :
    (∀ rest, 255 ∉ rest → Undisturbed before line rest) ↔
      AtLineStart before ∧ HoldsWindow line := by
  rw [List.mem_append, not_or] at heof
  have hwith : ∀ rest, 255 ∉ rest → 255 ∉ before ++ (line ++ newline :: rest) := by
    intro rest hrest h
    simp only [List.mem_append, List.mem_cons] at h
    rcases h with h | h | h | h
    · exact heof.1 h
    · exact heof.2 h
    · exact absurd h (by decide)
    · exact hrest h
  have hwithout : ∀ rest, 255 ∉ rest → 255 ∉ before ++ rest := by
    intro rest hrest h
    exact (List.mem_append.1 h).elim heof.1 hrest
  constructor
  · intro h
    have hcfg := place_of_undisturbed cfgKeys CfgParsed.out (r := .none) hbefore hline hset
      exists_address (fun rest hrest => by
        have hsame := (h rest hrest).1 ⟨.null, .null, 0⟩
        rw [readCfg_run (hwith rest hrest), readCfg_run (hwithout rest hrest)] at hsame
        exact (Prod.mk.inj (Except.ok.inj hsame)).2)
    have hsrv := place_of_undisturbed srvKeys (fun r => r.commPort.getD defaultPort)
      (r := .none) hbefore hline hset exists_port
      (fun rest hrest => by
        have hsame := (h rest hrest).2
        rw [readSrvCfg_run (hwith rest hrest), readSrvCfg_run (hwithout rest hrest)] at hsame
        exact (Prod.mk.inj (Except.ok.inj hsame)).2)
    exact ⟨⟨hcfg.1, hsrv.1⟩, hcfg.2⟩
  · rintro ⟨⟨hcfg, hsrv⟩, hfits⟩ rest hrest
    have hsame : ∀ keys, (cfgScanner keys).place before = none → (cfgScanner keys).Fits line →
        (cfgReading keys).run (before ++ (line ++ newline :: rest)) .none =
          (cfgReading keys).run (before ++ rest) .none := by
      intro keys hplace hfits
      obtain ⟨hone, htwo⟩ := run_delete hbefore hline hset keys rest .none
      have hstays : (cfgScanner keys).place (before ++ (line ++ [newline])) =
          (cfgScanner keys).place before :=
        (Scanner.place_append_line_iff (S := cfgScanner keys) hline before).2 ⟨hplace, hfits⟩
      rw [hone, htwo, hstays]
    constructor
    · intro out
      rw [readCfg_run (hwith rest hrest), readCfg_run (hwithout rest hrest),
        hsame cfgKeys hcfg hfits]
    · rw [readSrvCfg_run (hwith rest hrest), readSrvCfg_run (hwithout rest hrest),
        hsame srvKeys hsrv hfits.fits_srv]

/-- A comment at the start of a file can be deleted. -/
theorem ignored_iff_comment : Undisturbed [] (text ['#']) (text ['i', 'd', '=', '5']) := by
  have hiff := ignored_iff [] (text ['#']) (Or.inl rfl) (by decide) (by decide) (by decide)
  have hall := hiff.2 ⟨⟨Scanner.place_nil, Scanner.place_nil⟩, 35, [], rfl, by decide⟩
  exact hall (text ['i', 'd', '=', '5']) (by decide)

/-- **An empty line is noticed**: the line behind it is taken for the rest of it. -/
theorem ignored_fails : ¬ Undisturbed [] [] (text ['i', 'd', '=', '5']) := by
  rintro ⟨h, -⟩
  have hsame := h ⟨.null, .null, 0⟩
  revert hsame
  decide

end Rds
