import Rds.Spec.Client

/-!
# What gets into the transaction

* `addTargets_eq`, `addErases_eq`: what the loops of `ssds_rpm_process` put into the
  transaction set, and when they stop.
* `ssdsRpmProcess_eq`: the whole function.
* `all_or_nothing_iff`: when a transaction that is run holds everything it should. What
  `ssds_add_to_transaction` returns is not looked at, and `ssds_add_to_erase` returns what
  its last match did.
-/

namespace Rds

variable {rpm : Rpm}

/-! ## Downloaded packages -/

/-- The `k`-th package put forward can be opened, read and added. -/
def Rpm.Adds (rpm : Rpm) (k : ℕ) : Prop :=
  (rpm.file k).opens = true ∧ (rpm.file k).read = 0 ∧ (rpm.file k).add = 0

instance (k : ℕ) : Decidable (rpm.Adds k) := inferInstanceAs (Decidable (_ ∧ _))

/-- What a list of targets should put into the transaction, the first one as the `k`-th. -/
def targetElements (action : SsdsAction) : ℕ → List LrPackageTarget → List RpmElement
  | _, [] => []
  | k, t :: targets => .install k t.localPath action :: targetElements action (k + 1) targets

/-- What it does put there. -/
def addedTargets (rpm : Rpm) (action : SsdsAction) : ℕ → List LrPackageTarget → List RpmElement
  | _, [] => []
  | k, t :: targets =>
    (if rpm.Adds k then [.install k t.localPath action] else []) ++
      addedTargets rpm action (k + 1) targets

theorem ssdsAddToTransaction_snd (ts : Rpmts) (pkg : Option String) (action : SsdsAction) :
    (ssdsAddToTransaction rpm ts pkg action).2 =
      { elements := ts.elements ++ (if rpm.Adds ts.calls then [.install ts.calls pkg action] else []),
        calls := ts.calls + 1 } := by
  unfold ssdsAddToTransaction Rpm.Adds
  by_cases ho : (rpm.file ts.calls).opens = true
  · by_cases hr : (rpm.file ts.calls).read = 0
    · by_cases ha : (rpm.file ts.calls).add = 0
      · simp [ho, hr, ha]
      · simp [ho, hr, ha]
    · simp [ho, hr]
  · simp [ho]

/-- **Targets without an error** are put forward one by one, whatever comes of it. -/
theorem addTargets_eq (action : SsdsAction) (error : Errors) {targets : List LrPackageTarget}
    (h : ∀ t ∈ targets, t.err = none) (ts : Rpmts) :
    addTargets rpm action error targets ts =
      (none, { elements := ts.elements ++ addedTargets rpm action ts.calls targets,
               calls := ts.calls + targets.length }) := by
  induction targets generalizing ts with
  | nil => simp [addTargets, addedTargets]
  | cons t targets ih =>
    obtain ⟨ht, h⟩ := List.forall_mem_cons.1 h
    have hrec := ih h (ssdsAddToTransaction rpm ts t.localPath action).2
    rw [addTargets, ht]
    simp only
    rw [hrec, ssdsAddToTransaction_snd, addedTargets, List.append_assoc, List.length_cons]
    simp only [Nat.add_assoc, Nat.add_comm 1]

/-- **A target with an error** stops the loop. -/
theorem addTargets_stop (action : SsdsAction) (error : Errors) {targets : List LrPackageTarget}
    (h : ∃ t ∈ targets, t.err ≠ none) (ts : Rpmts) :
    ∃ ts', addTargets rpm action error targets ts = (some error, ts') := by
  induction targets generalizing ts with
  | nil => obtain ⟨t, ht, -⟩ := h; cases ht
  | cons t targets ih =>
    rw [addTargets]
    cases hte : t.err with
    | some e => exact ⟨ts, rfl⟩
    | none =>
      obtain ⟨t', ht', hne⟩ := h
      rcases List.mem_cons.1 ht' with rfl | ht'
      · exact absurd hte hne
      · exact ih ⟨t', ht', hne⟩ _

/-! ## Installed packages -/

/-- What the matches of a name should put into the transaction. -/
def matchElements (k : ℕ) (pkg : Option String) (found : List EraseMatch) : List RpmElement :=
  found.map fun m => .erase k pkg m.recOffset

/-- A match that is added. -/
def EraseMatch.Added (m : EraseMatch) : Prop := m.recOffset ≠ 0 ∧ m.add = 0

instance (m : EraseMatch) : Decidable m.Added := inferInstanceAs (Decidable (_ ∧ _))

/-- What `ssds_add_to_erase` returns for the `k`-th package put forward: what adding its last
match with an offset returned. -/
def Rpm.eraseRc (rpm : Rpm) (k : ℕ) : ℤ :=
  ((rpm.found k).foldl (fun rc m => if m.recOffset ≠ 0 then m.add else rc) 0)

theorem foldl_eraseMatch (k : ℕ) (pkg : Option String) (found : List EraseMatch) :
    ∀ st : ℤ × List RpmElement, found.foldl (eraseMatch k pkg) st =
      (found.foldl (fun rc m => if m.recOffset ≠ 0 then m.add else rc) st.1,
        st.2 ++ matchElements k pkg (found.filter fun m => m.Added)) := by
  induction found with
  | nil => intro st; simp [matchElements]
  | cons m found ih =>
    intro st
    rw [List.foldl_cons, ih, List.foldl_cons]
    unfold eraseMatch
    by_cases ho : m.recOffset = 0
    · simp [ho, EraseMatch.Added]
    · by_cases ha : m.add = 0
      · simp [ho, ha, EraseMatch.Added, matchElements]
      · simp [ho, ha, EraseMatch.Added]

theorem ssdsAddToErase_eq (ts : Rpmts) (pkg : Option String) :
    ssdsAddToErase rpm ts pkg = (rpm.eraseRc ts.calls,
      { elements := ts.elements ++
          matchElements ts.calls pkg ((rpm.found ts.calls).filter fun m => m.Added),
        calls := ts.calls + 1 }) := by
  unfold ssdsAddToErase
  rw [foldl_eraseMatch]
  rfl

/-- What a list of names should put into the transaction, the first one as the `k`-th. -/
def eraseElements (rpm : Rpm) : ℕ → List SsdsJsonPkg → List RpmElement
  | _, [] => []
  | k, pkg :: pkgs =>
    matchElements k pkg.pkgName (rpm.found k) ++ eraseElements rpm (k + 1) pkgs

/-- What it does put there. -/
def addedErases (rpm : Rpm) : ℕ → List SsdsJsonPkg → List RpmElement
  | _, [] => []
  | k, pkg :: pkgs =>
    matchElements k pkg.pkgName ((rpm.found k).filter fun m => m.Added) ++
      addedErases rpm (k + 1) pkgs

/-- **Names for which `ssds_add_to_erase` returns 0** go through. -/
theorem addErases_eq {pkgs : List SsdsJsonPkg} {ts : Rpmts}
    (h : ∀ i < pkgs.length, rpm.eraseRc (ts.calls + i) = 0) :
    addErases rpm (pkgs.map some) ts =
      .ok (none, { elements := ts.elements ++ addedErases rpm ts.calls pkgs,
                   calls := ts.calls + pkgs.length }) := by
  induction pkgs generalizing ts with
  | nil => simp [addErases, addedErases, pure, Except.pure]
  | cons pkg pkgs ih =>
    obtain ⟨h0, hrest⟩ := (@forall_offset_succ (fun k => rpm.eraseRc k = 0) _ _).1 h
    rw [List.map_cons, addErases, ssdsAddToErase_eq]
    simp only
    rw [if_neg (by rw [h0]; decide), ih hrest]
    simp only [addedErases, List.append_assoc, List.length_cons, Nat.add_assoc, Nat.add_comm 1]

/-- **A name for which it does not** stops the loop. -/
theorem addErases_stop {pkgs : List SsdsJsonPkg} {ts : Rpmts}
    (h : ∃ i < pkgs.length, rpm.eraseRc (ts.calls + i) ≠ 0) :
    ∃ ts', addErases rpm (pkgs.map some) ts = .ok (some .eraseError, ts') := by
  induction pkgs generalizing ts with
  | nil => obtain ⟨i, hi, -⟩ := h; simp at hi
  | cons pkg pkgs ih =>
    rw [List.map_cons, addErases, ssdsAddToErase_eq]
    simp only
    by_cases h0 : rpm.eraseRc ts.calls = 0
    · rw [if_neg (by rw [h0]; decide)]
      rcases (@exists_offset_succ (fun k => rpm.eraseRc k ≠ 0) _ _).1 h with hne | hrest
      · exact absurd h0 hne
      · exact ih hrest
    · have hne : rpm.eraseRc ts.calls ≠ Errors.ok.num := h0
      rw [if_pos hne]
      exact ⟨_, rfl⟩

/-! ## Everything or less -/

/-- Lists that may each have lost something have lost nothing together only if neither has. -/
theorem append_eq_iff_of_sublist {α : Type} {a a' b b' : List α} (ha : List.Sublist a a')
    (hb : List.Sublist b b') : a ++ b = a' ++ b' ↔ a = a' ∧ b = b' := by
  constructor
  · intro h
    -- neither can be longer than the other, so the lengths agree one by one
    have hlen := congrArg List.length h
    simp only [List.length_append] at hlen
    have hla := ha.length_le
    have hlb := hb.length_le
    exact ⟨ha.eq_of_length (by omega), hb.eq_of_length (by omega)⟩
  · rintro ⟨rfl, rfl⟩
    rfl

theorem addedTargets_sublist (action : SsdsAction) (k : ℕ) (targets : List LrPackageTarget) :
    List.Sublist (addedTargets rpm action k targets) (targetElements action k targets) := by
  induction targets generalizing k with
  | nil => exact List.Sublist.refl _
  | cons t targets ih =>
    rw [addedTargets, targetElements]
    by_cases ha : rpm.Adds k
    · rw [if_pos ha]; exact (ih (k + 1)).cons_cons _
    · rw [if_neg ha]; exact (ih (k + 1)).cons _

theorem addedTargets_eq_iff {action : SsdsAction} {k : ℕ} {targets : List LrPackageTarget} :
    addedTargets rpm action k targets = targetElements action k targets ↔
      ∀ i < targets.length, rpm.Adds (k + i) := by
  induction targets generalizing k with
  | nil => simp [addedTargets, targetElements]
  | cons t targets ih =>
    have hsplit : targetElements action k (t :: targets) =
        [.install k t.localPath action] ++ targetElements action (k + 1) targets := rfl
    have hhead : List.Sublist (if rpm.Adds k then [RpmElement.install k t.localPath action] else [])
        [.install k t.localPath action] := by
      split
      · exact List.Sublist.refl _
      · exact List.nil_sublist _
    rw [addedTargets, hsplit,
      append_eq_iff_of_sublist hhead (addedTargets_sublist action (k + 1) targets), ih]
    have hone : (if rpm.Adds k then [RpmElement.install k t.localPath action] else []) =
        [.install k t.localPath action] ↔ rpm.Adds k := by simp
    rw [hone, List.length_cons, @forall_offset_succ rpm.Adds]

theorem matchElements_sublist (k : ℕ) (pkg : Option String) (found : List EraseMatch) :
    List.Sublist (matchElements k pkg (found.filter fun m => m.Added)) (matchElements k pkg found) :=
  List.filter_sublist.map _

theorem matchElements_eq_iff {k : ℕ} {pkg : Option String} {found : List EraseMatch} :
    matchElements k pkg (found.filter fun m => m.Added) = matchElements k pkg found ↔
      ∀ m ∈ found, m.Added := by
  constructor
  · intro h
    have hlen := congrArg List.length h
    simp only [matchElements, List.length_map] at hlen
    have hall := List.length_filter_eq_length_iff.1 hlen
    simpa using hall
  · intro h
    have hall : found.filter (fun m => m.Added) = found := by
      rw [List.filter_eq_self]
      simpa using h
    rw [hall]

theorem addedErases_sublist (k : ℕ) (pkgs : List SsdsJsonPkg) :
    List.Sublist (addedErases rpm k pkgs) (eraseElements rpm k pkgs) := by
  induction pkgs generalizing k with
  | nil => exact List.Sublist.refl _
  | cons pkg pkgs ih => exact (matchElements_sublist _ _ _).append (ih (k + 1))

theorem addedErases_eq_iff {k : ℕ} {pkgs : List SsdsJsonPkg} :
    addedErases rpm k pkgs = eraseElements rpm k pkgs ↔
      ∀ i < pkgs.length, ∀ m ∈ rpm.found (k + i), m.Added := by
  induction pkgs generalizing k with
  | nil => simp [addedErases, eraseElements]
  | cons pkg pkgs ih =>
    rw [addedErases, eraseElements, append_eq_iff_of_sublist (matchElements_sublist _ _ _)
      (addedErases_sublist (k + 1) pkgs), ih, matchElements_eq_iff, List.length_cons,
      @forall_offset_succ fun k => ∀ m ∈ rpm.found k, m.Added]

/-! ## The whole function -/

variable {install update : List LrPackageTarget} {erase : List SsdsJsonPkg}

/-- **The call ends before `rpmtsRun`**: a target has an error, or the value for a name to
erase is not 0. -/
def Stops (rpm : Rpm) (install update : List LrPackageTarget) (erase : List SsdsJsonPkg) : Prop :=
  (∃ t ∈ install, t.err ≠ none) ∨ (∃ t ∈ update, t.err ≠ none) ∨
    ∃ i < erase.length, rpm.eraseRc (install.length + update.length + i) ≠ 0

/-- The transaction the three lists ask for. -/
def wholeTransaction (rpm : Rpm) (install update : List LrPackageTarget)
    (erase : List SsdsJsonPkg) : List RpmElement :=
  targetElements .ssdsInstall 0 install ++ (targetElements .ssdsUpdate install.length update ++
    eraseElements rpm (install.length + update.length) erase)

/-- The transaction they get. -/
def addedTransaction (rpm : Rpm) (install update : List LrPackageTarget)
    (erase : List SsdsJsonPkg) : List RpmElement :=
  addedTargets rpm .ssdsInstall 0 install ++ (addedTargets rpm .ssdsUpdate install.length update ++
    addedErases rpm (install.length + update.length) erase)

/-- Why a call ends before `rpmtsRun`, by the error it returns. -/
inductive StopsWith (rpm : Rpm) (install update : List LrPackageTarget) (erase : List SsdsJsonPkg) :
    Errors → Prop
  | install : (∃ t ∈ install, t.err ≠ none) → StopsWith rpm install update erase .installError
  | update : (∃ t ∈ update, t.err ≠ none) → StopsWith rpm install update erase .updateError
  | erase : (∃ i < erase.length, rpm.eraseRc (install.length + update.length + i) ≠ 0) →
      StopsWith rpm install update erase .eraseError

/-- A call that stops returns the error for it and runs nothing. -/
theorem ssdsRpmProcess_stop (h : Stops rpm install update erase) :
    ∃ e ts, StopsWith rpm install update erase e ∧
      ssdsRpmProcess rpm install update (none :: erase.map some) = .ok (.stop e ts) := by
  unfold ssdsRpmProcess
  -- the loops run in this order, and the first one to stop decides the error
  by_cases hi : ∃ t ∈ install, t.err ≠ none
  · obtain ⟨ts, hts⟩ := @addTargets_stop rpm .ssdsInstall .installError install hi rpmtsCreate
    rw [hts]
    exact ⟨.installError, ts, .install hi, rfl⟩
  have hi' : ∀ t ∈ install, t.err = none := by push Not at hi; exact hi
  rw [addTargets_eq .ssdsInstall .installError hi']
  simp only
  by_cases hu : ∃ t ∈ update, t.err ≠ none
  · obtain ⟨ts, hts⟩ := @addTargets_stop rpm .ssdsUpdate .updateError update hu
      { elements := rpmtsCreate.elements ++ addedTargets rpm .ssdsInstall rpmtsCreate.calls install,
        calls := rpmtsCreate.calls + install.length }
    rw [hts]
    exact ⟨.updateError, ts, .update hu, rfl⟩
  have hu' : ∀ t ∈ update, t.err = none := by push Not at hu; exact hu
  rw [addTargets_eq .ssdsUpdate .updateError hu']
  simp only [List.drop_succ_cons, List.drop_zero]
  rcases h with h | h | ⟨i, hlt, hne⟩
  · exact absurd h hi
  · exact absurd h hu
  · have hcalls : rpmtsCreate.calls + install.length + update.length =
        install.length + update.length := by simp [rpmtsCreate]
    have hne' := hne
    rw [← hcalls] at hne'
    obtain ⟨ts, hts⟩ := @addErases_stop rpm erase { elements := _, calls := _ } ⟨i, hlt, hne'⟩
    rw [hts]
    exact ⟨.eraseError, ts, .erase ⟨i, hlt, hne⟩, rfl⟩

/-- **A call that does not stop** runs what was added. -/
theorem ssdsRpmProcess_run (h : ¬ Stops rpm install update erase) :
    ssdsRpmProcess rpm install update (none :: erase.map some) = .ok
      { rc := rpm.run,
        ts := { elements := addedTransaction rpm install update erase,
                calls := install.length + update.length + erase.length },
        ran := true } := by
  unfold Stops at h
  push Not at h
  obtain ⟨hi, hu, he⟩ := h
  have hcalls : rpmtsCreate.calls = 0 := rfl
  have hels : rpmtsCreate.elements = [] := rfl
  unfold ssdsRpmProcess addedTransaction
  rw [addTargets_eq .ssdsInstall .installError hi]
  simp only
  rw [addTargets_eq .ssdsUpdate .updateError hu]
  simp only [List.drop_succ_cons, List.drop_zero, hcalls, hels, Nat.zero_add, List.nil_append]
  rw [addErases_eq he]
  simp [bind, Except.bind, pure, Except.pure]

/-! ## All or nothing -/

/-- **Every package of the three lists is in the transaction set**, every match of a name to
erase included, and every such name has one. -/
def AllAdded (rpm : Rpm) (install update : List LrPackageTarget) (erase : List SsdsJsonPkg)
    (ts : Rpmts) : Prop :=
  ts.elements = wholeTransaction rpm install update erase ∧
    ∀ i < erase.length, rpm.found (install.length + update.length + i) ≠ []

/-- **The transaction is all or nothing.** -/
def AllOrNothing (rpm : Rpm) (install update : List LrPackageTarget)
    (erase : List SsdsJsonPkg) : Prop :=
  ∃ r, ssdsRpmProcess rpm install update (none :: erase.map some) = .ok r ∧
    (r.ran = true → AllAdded rpm install update erase r.ts) ∧
    (¬ AllAdded rpm install update erase r.ts → r.ran = false ∧ r.rc ≠ 0)

/-- Every file can be opened, read and added, and every name to erase has matches, all of
which can be added. -/
def AllAddable (rpm : Rpm) (install update : List LrPackageTarget) (erase : List SsdsJsonPkg) :
    Prop :=
  (∀ k < install.length + update.length, rpm.Adds k) ∧
    ∀ i < erase.length, rpm.found (install.length + update.length + i) ≠ [] ∧
      ∀ m ∈ rpm.found (install.length + update.length + i), m.Added

theorem allAddable_iff : AllAddable rpm install update erase ↔
    addedTransaction rpm install update erase = wholeTransaction rpm install update erase ∧
      ∀ i < erase.length, rpm.found (install.length + update.length + i) ≠ [] := by
  have hrest := (@addedTargets_sublist rpm .ssdsUpdate install.length update).append
    (@addedErases_sublist rpm (install.length + update.length) erase)
  unfold AllAddable addedTransaction wholeTransaction
  rw [append_eq_iff_of_sublist (addedTargets_sublist _ _ _) hrest,
    append_eq_iff_of_sublist (addedTargets_sublist _ _ _) (addedErases_sublist _ _),
    addedTargets_eq_iff, addedTargets_eq_iff, addedErases_eq_iff]
  constructor
  · rintro ⟨hf, he⟩
    refine ⟨⟨fun i hi => hf _ (by omega), fun i hi => hf _ (by omega), fun i hi => (he i hi).2⟩,
      fun i hi => (he i hi).1⟩
  · rintro ⟨⟨hi, hu, he⟩, hne⟩
    refine ⟨fun k hk => ?_, fun i hi => ⟨hne i hi, he i hi⟩⟩
    by_cases hlt : k < install.length
    · have := hi k hlt
      rwa [Nat.zero_add] at this
    · have := hu (k - install.length) (by omega)
      rwa [show install.length + (k - install.length) = k by omega] at this

/-- **When the transaction is all or nothing.** -/
theorem all_or_nothing_iff (rpm : Rpm) (install update : List LrPackageTarget)
    (erase : List SsdsJsonPkg) :
    AllOrNothing rpm install update erase ↔
      Stops rpm install update erase ∨ AllAddable rpm install update erase := by
  by_cases hstop : Stops rpm install update erase
  -- a call that stops is within the rule
  · obtain ⟨e, ts, hwith, hr⟩ := ssdsRpmProcess_stop hstop
    have hnum : e.num ≠ 0 := by cases hwith <;> decide
    refine ⟨fun _ => Or.inl hstop, fun _ => ⟨_, hr, ?_, fun _ => ⟨rfl, hnum⟩⟩⟩
    intro hran
    cases hran
  · have hr := ssdsRpmProcess_run hstop
    -- one that does not runs the transaction, whatever got into it
    constructor
    · rintro ⟨r, hr', hran, -⟩
      rw [hr] at hr'
      cases hr'
      exact Or.inr (allAddable_iff.2 (hran rfl))
    · rintro (h | h)
      · exact absurd h hstop
      · exact ⟨_, hr, fun _ => allAddable_iff.1 h, fun hn => absurd (allAddable_iff.1 h) hn⟩

/-- rpmlib on a machine where the packages downloaded cannot be opened. -/
def unreadableRpm : Rpm where
  file _ := { opens := false, read := 0, add := 0 }
  found _ := []
  run := 0

/-- A package that was downloaded. -/
def downloaded : LrPackageTarget where
  metalink := none
  relativeUrl := some "a.rpm"
  baseUrl := some "http://a/"
  cbdata := some "a"
  err := none
  localPath := some "/var/cache/ssds/packages/a.rpm"

/-- **A transaction without its package is run.** -/
theorem unopened_package_dropped : ¬ AllOrNothing unreadableRpm [downloaded] [] [] := by
  rintro ⟨r, hr, hran, -⟩
  cases hr
  have hadded := (hran rfl).1
  cases hadded

end Rds
