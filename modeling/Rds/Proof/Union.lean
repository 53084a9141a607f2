import Rds.Proof.Solve
import Mathlib.Data.Finset.Max

/-!
# A request for several names

`ssds_dep_query` looks for packages named exactly as one of the names, and only if it finds none
takes the names for patterns.

* `mem_selectPkgs_iff`: what the query selects.
* `mem_goalLoop_iff`: what of it gets into the goal.
* `selected_union_iff`: **when the selection is that of each name on its own**.
* `unionOfNames_iff`: the same of what is added to the goal.
-/

namespace Rds

variable {hy : Hawkey} {sack : HySack} {operation : Code} {names : List String} {p : HyPackage}

/-! ## The selection -/

/-- No package of the same name and architecture is newer. -/
def Latest (sack : HySack) (p : HyPackage) : Prop :=
  ∀ q ∈ sack, q.name = p.name → q.arch = p.arch → q.evr ≤ p.evr

theorem mem_latestPerArch_filter (f : String → Bool) :
    p ∈ latestPerArch (sack.filter fun q => f q.name) ↔
      p ∈ sack ∧ f p.name = true ∧ Latest sack p := by
  unfold latestPerArch Latest
  simp only [List.mem_filter, List.all_eq_true, and_assoc]
  refine and_congr_right fun _ => and_congr_right fun hp => ?_
  constructor
  · intro h q hq hname harch
    have hnot := h q ⟨hq, by rwa [hname]⟩
    simpa [hname, harch] using hnot
  · intro h q hq
    by_cases hsame : q.name = p.name ∧ q.arch = p.arch
    · have hle := h q hq.1 hsame.1 hsame.2
      simp [hsame, hle]
    · simp only [Bool.not_eq_true', Bool.and_eq_false_iff, decide_eq_false_iff_not]
      by_cases hname : q.name = p.name
      · exact Or.inl (Or.inr fun harch => hsame ⟨hname, harch⟩)
      · exact Or.inl (Or.inl hname)

/-- Every package has a latest version. -/
theorem exists_latest (hp : p ∈ sack) : ∃ q ∈ sack, q.name = p.name ∧ Latest sack q := by
  have hne : (sack.toFinset.filter fun q => q.name = p.name ∧ q.arch = p.arch).Nonempty :=
    ⟨p, by simp [hp]⟩
  obtain ⟨q, hq, hmax⟩ := Finset.exists_max_image _ HyPackage.evr hne
  simp only [Finset.mem_filter, List.mem_toFinset] at hq hmax
  obtain ⟨hsack, hname, harch⟩ := hq
  refine ⟨q, hsack, hname, fun q' hq' hname' harch' => ?_⟩
  exact hmax q' ⟨hq', hname'.trans hname, harch'.trans harch⟩

/-- A package of the sack is named as one of the names. -/
def Matched (names : List String) (sack : HySack) : Prop := ∃ p ∈ sack, p.name ∈ names

theorem filterName_eq (hy : Hawkey) (names : List String) (sack : HySack) :
    hy.filterName .eq names sack = sack.filter fun q => decide (q.name ∈ names) := by
  unfold Hawkey.filterName Hawkey.nameMatches
  refine List.filter_congr fun q _ => ?_
  rw [Bool.eq_iff_iff, List.any_eq_true, decide_eq_true_iff]
  simp

theorem filterName_eq_nil_iff (hy : Hawkey) (names : List String) (sack : HySack) :
    (hy.filterName .eq names sack).length = 0 ↔ ¬ Matched names sack := by
  rw [filterName_eq, List.length_eq_zero_iff, List.filter_eq_nil_iff]
  unfold Matched
  simp

/-- **What is selected**: exact matches if there are any, else pattern matches, and of these the
latest. -/
theorem mem_selectPkgs_iff : p ∈ selectPkgs hy names sack ↔ p ∈ sack ∧ Latest sack p ∧
    ((Matched names sack ∧ p.name ∈ names) ∨
      (¬ Matched names sack ∧ ∃ name ∈ names, hy.fnmatch name p.name)) := by
  have hnone := filterName_eq_nil_iff hy names sack
  unfold selectPkgs
  simp only
  by_cases hm : Matched names sack
  · rw [if_neg fun h => hnone.1 h hm, filterName_eq,
      mem_latestPerArch_filter fun name => decide (name ∈ names)]
    simp [hm, and_comm]
  · rw [if_pos (hnone.2 hm)]
    unfold Hawkey.filterName Hawkey.nameMatches
    rw [mem_latestPerArch_filter (fun n => names.any fun name => hy.fnmatch name n)]
    simp [hm, and_comm]

theorem matched_singleton_iff {name : String} : Matched [name] sack ↔ ∃ p ∈ sack, p.name = name := by
  simp [Matched]

/-- Whatever is selected would be for one of the names alone. -/
theorem selected_of_name (h : p ∈ selectPkgs hy names sack) :
    ∃ name ∈ names, p ∈ selectPkgs hy [name] sack := by
  obtain ⟨hp, hlatest, ⟨-, hname⟩ | ⟨hm, name, hname, hmatch⟩⟩ := mem_selectPkgs_iff.1 h
  · have hexact : Matched [p.name] sack := matched_singleton_iff.2 ⟨p, hp, rfl⟩
    exact ⟨p.name, hname, mem_selectPkgs_iff.2 ⟨hp, hlatest, Or.inl ⟨hexact, by simp⟩⟩⟩
  · have hnone : ¬ Matched [name] sack := by
      intro hexact
      obtain ⟨q, hq, hqname⟩ := matched_singleton_iff.1 hexact
      exact hm ⟨q, hq, hqname ▸ hname⟩
    exact ⟨name, hname, mem_selectPkgs_iff.2 ⟨hp, hlatest, Or.inr ⟨hnone, name, by simp, hmatch⟩⟩⟩

/-- **No name is dropped**: none of them is the name of a package, or each that is not matches, as
a pattern, only packages that are named in the request. -/
def KeepsNames (hy : Hawkey) (names : List String) (sack : HySack) : Prop :=
  Matched names sack → ∀ name ∈ names, ¬ Matched [name] sack →
    ∀ p ∈ sack, hy.fnmatch name p.name → p.name ∈ names

/-- **When the selection is the union** of those for the names. -/
theorem selected_union_iff : (∀ p, p ∈ selectPkgs hy names sack ↔
    ∃ name ∈ names, p ∈ selectPkgs hy [name] sack) ↔ KeepsNames hy names sack := by
  constructor
  · intro h hm name hname hnone p hp hmatch
    obtain ⟨q, hq, hqname, hlatest⟩ := exists_latest hp
    have hpattern : q ∈ selectPkgs hy [name] sack :=
      mem_selectPkgs_iff.2 ⟨hq, hlatest, Or.inr ⟨hnone, name, by simp, by rwa [hqname]⟩⟩
    obtain ⟨-, -, ⟨-, hin⟩ | ⟨hnot, -⟩⟩ := mem_selectPkgs_iff.1 ((h q).2 ⟨name, hname, hpattern⟩)
    · rwa [hqname] at hin
    · exact absurd hm hnot
  · intro h p
    refine ⟨selected_of_name, ?_⟩
    rintro ⟨name, hname, hsel⟩
    obtain ⟨hp, hlatest, ⟨hexact, hpname⟩ | ⟨hnone, name', hname', hmatch⟩⟩ :=
      mem_selectPkgs_iff.1 hsel
    · have hin : p.name ∈ names := by
        rw [List.mem_singleton] at hpname
        rwa [hpname]
      exact mem_selectPkgs_iff.2 ⟨hp, hlatest, Or.inl ⟨⟨p, hp, hin⟩, hin⟩⟩
    · rw [List.mem_singleton] at hname'
      rw [hname'] at hmatch
      by_cases hm : Matched names sack
      · exact mem_selectPkgs_iff.2 ⟨hp, hlatest, Or.inl ⟨hm, h hm name hname hnone p hp hmatch⟩⟩
      · exact mem_selectPkgs_iff.2 ⟨hp, hlatest, Or.inr ⟨hm, name, hname, hmatch⟩⟩

/-! ## The goal -/

/-- The package of a job. -/
def jobPkg : HyJob → Option HyPackage
  | .install pkg => some pkg
  | .upgradeTo pkg => some pkg
  | .erase pkg => some pkg
  | .upgradeAll => none

/-- The packages of a goal. -/
def GoalState.pkgs (st : GoalState) : List HyPackage := st.goal.filterMap jobPkg

/-- The operations on packages. -/
def OnPackages (operation : Code) : Prop :=
  operation = .getInstall ∨ operation = .getUpdate ∨ operation = .getErase

theorem OnPackages.jobPkg_goalJob (hop : OnPackages operation) (pkg : HyPackage) :
    (goalJob operation pkg).filterMap jobPkg = [pkg] := by
  rcases hop with h | h | h <;> rw [h] <;> rfl

theorem OnPackages.ne_updateAll (hop : OnPackages operation) : operation ≠ .getUpdateAll := by
  rcases hop with h | h | h <;> rw [h] <;> decide

/-- A package the loop gets to, its first run being the one with number `start`: no run before
its own fails. -/
def Reached (hy : Hawkey) (start : ℕ) (plist : List HyPackage) (p : HyPackage) : Prop :=
  ∃ i, plist[i]? = some p ∧ ∀ k < i, hy.goalRun (start + k) = 0

theorem reached_cons {start : ℕ} {pkg : HyPackage} {plist : List HyPackage} :
    Reached hy start (pkg :: plist) p ↔
      pkg = p ∨ hy.goalRun start = 0 ∧ Reached hy (start + 1) plist p := by
  unfold Reached
  constructor
  · rintro ⟨i, hi, hruns⟩
    cases i with
    | zero => exact Or.inl (Option.some.inj hi)
    | succ i =>
      obtain ⟨h0, hnext⟩ := (@forall_offset_succ (fun k => hy.goalRun k = 0) _ _).1 hruns
      exact Or.inr ⟨h0, i, hi, hnext⟩
  · rintro (h | ⟨h0, i, hi, hnext⟩)
    · exact ⟨0, by rw [List.getElem?_cons_zero, h], fun k hk => absurd hk (Nat.not_lt_zero k)⟩
    · exact ⟨i + 1, hi, (@forall_offset_succ (fun k => hy.goalRun k = 0) _ _).2 ⟨h0, hnext⟩⟩

/-- **What gets into the goal**: the packages up to the first whose run fails. -/
theorem mem_goalLoop_iff (hop : OnPackages operation) {plist : List HyPackage} :
    ∀ {st : GoalState}, p ∈ (goalLoop hy operation plist st).2.pkgs ↔
      p ∈ st.pkgs ∨ Reached hy st.runs.length plist p := by
  induction plist with
  | nil =>
    intro st
    simp [goalLoop, Reached]
  | cons pkg plist ih =>
    intro st
    have hpkgs : ∀ runs : List ℤ, (⟨st.goal ++ goalJob operation pkg, runs⟩ : GoalState).pkgs =
        st.pkgs ++ [pkg] := by
      intro runs
      unfold GoalState.pkgs
      rw [List.filterMap_append, hop.jobPkg_goalJob]
    rw [goalLoop, reached_cons]
    unfold hyGoalRun
    simp only [List.getLast?_append, List.getLast?_singleton, Option.some_or, Option.some.injEq]
    -- the job is in the goal before its run, so the package of a run that fails is in it too
    by_cases h0 : hy.goalRun st.runs.length = 0
    · rw [if_pos h0, ih, hpkgs, List.length_append, List.length_singleton, List.mem_append,
        List.mem_singleton]
      simp only [h0, true_and, or_assoc, eq_comm]
    · rw [if_neg h0, hpkgs, List.mem_append, List.mem_singleton]
      simp only [h0, false_and, or_false, eq_comm]

/-! ## The request -/

/-- The array of a request for these names: they are followed by `NULL`. -/
def requestOf (names : List String) (i : ℕ) : Ptr String := .of names[i]?

theorem namesFrom_requestOf : ∀ {n i : ℕ}, names.length < i + n →
    namesFrom (requestOf names) n i = .ok (names.drop i) := by
  intro n
  induction n with
  | zero =>
    intro i hlen
    rw [namesFrom, List.drop_of_length_le (by omega)]
  | succ n ih =>
    intro i hlen
    by_cases hi : i < names.length
    · have hslot : requestOf names i = .good names[i] := by
        unfold requestOf
        rw [List.getElem?_eq_getElem hi]
        rfl
      rw [namesFrom, hslot, List.drop_eq_getElem_cons hi]
      simp only [ih (i := i + 1) (by omega), bind, Except.bind]
      rfl
    · have hslot : requestOf names i = .null := by
        unfold requestOf
        rw [List.getElem?_eq_none (by omega)]
        rfl
      rw [namesFrom, hslot, List.drop_of_length_le (by omega)]

/-- The names are read, if there are any. -/
theorem requestNames_requestOf (hne : names ≠ []) :
    requestNames (requestOf names) names.length = .ok names := by
  unfold requestNames
  by_cases hone : names.length > 1
  · rw [if_pos hone, namesFrom_requestOf (by omega), List.drop_zero]
  · rw [if_neg hone]
    cases names with
    | nil => exact absurd rfl hne
    | cons name rest =>
      have hrest : rest = [] := by simpa using hone
      rw [hrest]
      rfl

/-- The query, whatever becomes of it, leaves the goal of the loop. -/
theorem query_goal (hy : Hawkey) (sack : HySack) (hop : OnPackages operation) (hne : names ≠ []) :
    ∃ r, query hy (requestOf names) sack operation names.length = .ok r ∧
      r.goal = (goalLoop hy operation (selectPkgs hy names sack) { goal := [], runs := [] }).2 := by
  unfold query ssdsDepQuery
  simp only [if_neg hop.ne_updateAll, requestNames_requestOf hne, bind, Except.bind]
  generalize goalLoop hy operation (selectPkgs hy names sack) { goal := [], runs := [] } = loop
  obtain ⟨done, st⟩ := loop
  cases done with
  | false => exact ⟨_, rfl, rfl⟩
  | true =>
    obtain ⟨json, hjson, -⟩ := (Built.init .answerOk).pkgsInsert (hy.solution st.goal)
    simp only [if_true, hjson]
    exact ⟨_, rfl, rfl⟩

/-- **A request is the union of its names**: what is added to the goal is what is selected for
each of them alone. -/
def UnionOfNames (hy : Hawkey) (names : List String) (sack : HySack) (operation : Code) : Prop :=
  ∃ r, query hy (requestOf names) sack operation names.length = .ok r ∧
    ∀ p, p ∈ r.goal.pkgs ↔ ∃ name ∈ names, p ∈ selectPkgs hy [name] sack

/-- **When a request is the union of its names**: there is one, none is dropped, and no run fails
before the last package is in the goal. -/
theorem unionOfNames_iff (hy : Hawkey) (names : List String) (sack : HySack) (operation : Code)
    (hop : OnPackages operation) : UnionOfNames hy names sack operation ↔
      names ≠ [] ∧ KeepsNames hy names sack ∧
        ∀ p ∈ selectPkgs hy names sack, Reached hy 0 (selectPkgs hy names sack) p := by
  by_cases hne : names = []
  · refine iff_of_false ?_ fun h => h.1 hne
    rintro ⟨r, hr, -⟩
    rw [hne] at hr
    unfold query ssdsDepQuery at hr
    rw [if_neg hop.ne_updateAll] at hr
    cases hr
  · obtain ⟨r, hr, hgoal⟩ := query_goal hy sack hop hne
    have hmem : ∀ p, p ∈ r.goal.pkgs ↔ Reached hy 0 (selectPkgs hy names sack) p := by
      intro p
      rw [hgoal, mem_goalLoop_iff hop]
      simp [GoalState.pkgs]
    have hunion : UnionOfNames hy names sack operation ↔
        ∀ p, Reached hy 0 (selectPkgs hy names sack) p ↔
          ∃ name ∈ names, p ∈ selectPkgs hy [name] sack := by
      unfold UnionOfNames
      simp only [← hmem]
      constructor
      · rintro ⟨r', hr', h⟩
        rw [hr] at hr'
        cases hr'
        exact h
      · exact fun h => ⟨r, hr, h⟩
    rw [hunion, ← selected_union_iff]
    constructor
    · intro h
      have hsub : ∀ p, Reached hy 0 (selectPkgs hy names sack) p →
          p ∈ selectPkgs hy names sack := fun p ⟨i, hi, _⟩ => List.mem_of_getElem? hi
      refine ⟨hne, fun p => ⟨selected_of_name, fun hp => hsub p ((h p).2 hp)⟩, fun p hp => ?_⟩
      exact (h p).2 (selected_of_name hp)
    · rintro ⟨-, hsel, hreach⟩ p
      rw [← hsel]
      exact ⟨fun ⟨i, hi, _⟩ => List.mem_of_getElem? hi, hreach p⟩

/-! ## A name and a pattern -/

/-- A package of this name. -/
def plainPkg (name : String) : HyPackage := ⟨name, "noarch", 1, none, none, "r"⟩

/-- Patterns, of which only `b*` matches something; every goal is solved. -/
def starHawkey : Hawkey where
  fnmatch pattern name := pattern = "b*" ∧ name = "bar"
  goalRun _ := 0
  solution _ := ⟨[], [], [], [], []⟩

/-- Two names that are there. -/
theorem unionOfNames_exact :
    UnionOfNames starHawkey ["a", "bar"] [plainPkg "a", plainPkg "bar"] .getInstall := by
  apply (unionOfNames_iff _ _ _ _ (Or.inl rfl)).2
  refine ⟨by decide, fun _ name hname hnone => ?_, fun p hp => ?_⟩
  · refine absurd (matched_singleton_iff.2 ⟨plainPkg name, ?_, rfl⟩) hnone
    simpa [plainPkg] using hname
  · obtain ⟨i, hi⟩ := List.mem_iff_getElem?.1 hp
    exact ⟨i, hi, fun _ _ => rfl⟩

/-- **A pattern that is dropped**: `b*`, beside a name that is there. -/
theorem unionOfNames_fails :
    ¬ UnionOfNames starHawkey ["a", "b*"] [plainPkg "a", plainPkg "bar"] .getInstall := by
  rintro ⟨r, hr, h⟩
  have hbar : plainPkg "bar" ∈ selectPkgs starHawkey ["b*"] [plainPkg "a", plainPkg "bar"] := by
    decide
  have hmem := (h (plainPkg "bar")).2 ⟨"b*", by decide, hbar⟩
  cases hr
  revert hmem
  decide

end Rds
