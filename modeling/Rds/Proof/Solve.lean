import Rds.Proof.Acknowledge
import Rds.Proof.Builder

/-!
# What a reply says about solving

`ssds_dep_query` has a value on one path only, where a run of the goal failed. On the others
its caller compares with -1 whatever the return register holds.

* `goalLoop_solved`, `goalLoop_failed`: the goal grows package by package.
* `named_tellsTruth`: the reply to a request for named packages is right whatever the
  register holds.
* `updateAll_tellsTruth_iff`: the reply to an update of all is right by chance.
* `success_reported_iff`: when there is a value to compare, too.
-/

namespace Rds

variable {hy : Hawkey} {request : ℕ → Ptr String} {sack : HySack} {operation : Code} {n : ℕ}

/-! ## The loop -/

/-- **Every run returns 0**: the goal holds a job for each package. -/
theorem goalLoop_solved {plist : List HyPackage} :
    ∀ {st : GoalState}, (∀ k < plist.length, hy.goalRun (st.runs.length + k) = 0) →
      goalLoop hy operation plist st =
        (true, { goal := st.goal ++ plist.flatMap (goalJob operation),
                 runs := st.runs ++ List.replicate plist.length 0 }) := by
  induction plist with
  | nil => intro st _; simp [goalLoop]
  | cons pkg plist ih =>
    intro st h
    obtain ⟨h0, hrest⟩ := (@forall_offset_succ (fun k => hy.goalRun k = 0) _ _).1 h
    have hlast : (st.runs ++ [hy.goalRun st.runs.length]).getLast? = some 0 := by simp [h0]
    unfold goalLoop hyGoalRun
    simp only [if_pos hlast]
    rw [ih]
    · simp [h0, List.replicate_succ]
    · rw [List.length_append, List.length_singleton]
      exact hrest

/-- **A run fails**: the loop ends there. -/
theorem goalLoop_failed {plist : List HyPackage} :
    ∀ {st : GoalState}, (∃ k < plist.length, hy.goalRun (st.runs.length + k) ≠ 0) →
      ∃ st', goalLoop hy operation plist st = (false, st') ∧ ∃ rc ∈ st'.runs, rc ≠ 0 := by
  induction plist with
  | nil => rintro st ⟨k, hk, -⟩; exact absurd hk (Nat.not_lt_zero k)
  | cons pkg plist ih =>
    intro st h
    unfold goalLoop hyGoalRun
    by_cases h0 : hy.goalRun st.runs.length = 0
    · have hlast : (st.runs ++ [hy.goalRun st.runs.length]).getLast? = some 0 := by simp [h0]
      simp only [if_pos hlast]
      -- this run is not the one that fails
      rcases (@exists_offset_succ (fun k => hy.goalRun k ≠ 0) _ _).1 h with hne | hrest
      · exact absurd h0 hne
      · refine ih ?_
        rw [List.length_append, List.length_singleton]
        exact hrest
    · have hlast : (st.runs ++ [hy.goalRun st.runs.length]).getLast? ≠ some 0 := by simp [h0]
      simp only [if_neg hlast]
      exact ⟨_, rfl, _, by simp, h0⟩

/-! ## The query -/

/-- The packages a request for named packages selects; none if its names cannot be read. -/
def selected (hy : Hawkey) (request : ℕ → Ptr String) (sack : HySack) (n : ℕ) : List HyPackage :=
  match requestNames request n with
  | .ok names => selectPkgs hy names sack
  | .error _ => []

/-- **Some run fails.** -/
def Unsolved (hy : Hawkey) (request : ℕ → Ptr String) (sack : HySack) (n : ℕ) : Prop :=
  ∃ k < (selected hy request sack n).length, hy.goalRun k ≠ 0

/-- The query of a new answer. -/
def query (hy : Hawkey) (request : ℕ → Ptr String) (sack : HySack) (operation : Code) (n : ℕ) :
    Except Halt DepResult :=
  ssdsDepQuery hy request (ssdsJsCrInit .answerOk) sack operation n

theorem query_updateAll : ∃ json lists, Built json .answerOk lists ∧
    query hy request sack .getUpdateAll n = .ok
      { ret := none, answer := json, goal := { goal := [.upgradeAll], runs := [hy.goalRun 0] } } := by
  obtain ⟨json, hjson, hbuilt⟩ := (Built.init .answerOk).pkgsInsert (hy.solution [.upgradeAll])
  refine ⟨json, _, hbuilt, ?_⟩
  unfold query ssdsDepQuery hyGoalRun
  simp only [if_true, bind, Except.bind, hjson]
  rfl

theorem query_unsolved (hop : operation ≠ .getUpdateAll) (h : Unsolved hy request sack n) :
    ∃ goal, query hy request sack operation n =
        .ok { ret := some (-1), answer := ssdsJsCrInit .answerOk, goal } ∧
      ∃ rc ∈ goal.runs, rc ≠ 0 := by
  obtain ⟨k, hk, hne⟩ := h
  unfold selected at hk
  cases hnames : requestNames request n with
  | error e => rw [hnames] at hk; exact absurd hk (Nat.not_lt_zero k)
  | ok names =>
    rw [hnames] at hk
    obtain ⟨st, hst, hfail⟩ := @goalLoop_failed hy operation _ { goal := [], runs := [] }
      ⟨k, hk, by simpa using hne⟩
    refine ⟨st, ?_, hfail⟩
    unfold query ssdsDepQuery
    simp only [if_neg hop, hnames, bind, Except.bind, hst]
    rfl

theorem query_solved (hop : operation ≠ .getUpdateAll) {names : List String}
    (hnames : requestNames request n = .ok names) (h : ¬ Unsolved hy request sack n) :
    ∃ json lists, Built json .answerOk lists ∧ query hy request sack operation n = .ok
      { ret := none, answer := json,
        goal := { goal := (selected hy request sack n).flatMap (goalJob operation),
                  runs := List.replicate (selected hy request sack n).length 0 } } := by
  have hsel : selected hy request sack n = selectPkgs hy names sack := by
    unfold selected; rw [hnames]
  unfold Unsolved at h
  push Not at h
  rw [hsel] at h ⊢
  have hloop := @goalLoop_solved hy operation (selectPkgs hy names sack) { goal := [], runs := [] }
    (fun k hk => by simpa using h k hk)
  obtain ⟨json, hjson, hbuilt⟩ := (Built.init .answerOk).pkgsInsert
    (hy.solution ((selectPkgs hy names sack).flatMap (goalJob operation)))
  refine ⟨json, _, hbuilt, ?_⟩
  unfold query ssdsDepQuery
  simp only [if_neg hop, hnames, bind, Except.bind, hloop, List.nil_append, if_true, hjson]
  rfl

/-! ## The reply -/

/-- The document of the second reply. -/
def secondReply (reg : ℤ) (r : DepResult) : Json := ssdsJsCrToString (solvedMessage reg r)

theorem replyCode_root {c : Code} (ms : List (String × Json)) :
    replyCode (.obj (("code", .int c.num) :: ms)) = .ok c.num := by
  cases c <;> rfl

theorem Rooted.replyCode {json : SsdsJsonCreate} {c : Code} (h : Rooted json c) :
    replyCode (ssdsJsCrToString json) = .ok c.num := by
  obtain ⟨ms, hms⟩ := h.toString
  rw [hms, replyCode_root]

/-- **The code of the second reply.** -/
theorem replyCode_secondReply {reg : ℤ} {r : DepResult} {c : Code} (h : Rooted r.answer c) :
    replyCode (secondReply reg r) =
      .ok (if r.ret.getD reg = -1 then Code.answerNoDep.num else Code.answerOk.num) := by
  unfold secondReply solvedMessage
  split
  · exact ((h.insertCode .answerNoDep).setMessage _).replyCode
  · exact (h.insertCode .answerOk).replyCode

/-- The goal has every job it should. -/
def HoldsAll (operation : Code) (plist : List HyPackage) (goal : HyGoal) : Prop :=
  if operation = .getUpdateAll then HyJob.upgradeAll ∈ goal
  else ∀ pkg ∈ plist, ∀ job ∈ goalJob operation pkg, job ∈ goal

/-- **The reply tells the truth**: it reports success only if nothing was selected or the last
run solved the whole goal, and it reports every failure. -/
structure TellsTruth (operation : Code) (plist : List HyPackage) (reg : ℤ) (r : DepResult) :
    Prop where
  success : replyCode (secondReply reg r) = .ok Code.answerOk.num →
    (operation ≠ .getUpdateAll ∧ plist = []) ∨
      (r.goal.runs.getLast? = some 0 ∧ HoldsAll operation plist r.goal.goal)
  failure : (∃ rc ∈ r.goal.runs, rc ≠ 0) →
    replyCode (secondReply reg r) = .ok Code.answerNoDep.num

/-- A query that failed is reported. -/
theorem tellsTruth_unsolved {reg : ℤ} {goal : GoalState} {plist : List HyPackage} :
    TellsTruth operation plist reg
      { ret := some (-1), answer := ssdsJsCrInit .answerOk, goal } := by
  have hcode := @replyCode_secondReply reg
    { ret := some (-1), answer := ssdsJsCrInit .answerOk, goal } _ (Rooted.init .answerOk)
  rw [Option.getD_some, if_pos rfl] at hcode
  refine ⟨?_, fun _ => hcode⟩
  intro hok
  rw [hcode] at hok
  cases hok

/-- **Named packages**: the reply is right, whatever the register holds. -/
theorem named_tellsTruth (hop : operation ≠ .getUpdateAll) {r : DepResult}
    (h : query hy request sack operation n = .ok r) (reg : ℤ) :
    TellsTruth operation (selected hy request sack n) reg r := by
  by_cases hun : Unsolved hy request sack n
  · obtain ⟨goal, hq, -⟩ := query_unsolved hop hun
    rw [hq] at h
    cases h
    exact tellsTruth_unsolved
  · cases hnames : requestNames request n with
    | error e =>
      unfold query ssdsDepQuery at h
      simp only [if_neg hop, hnames, bind, Except.bind] at h
      cases h
    | ok names =>
      obtain ⟨json, lists, -, hq⟩ := query_solved hop hnames hun
      rw [hq] at h
      cases h
      -- all runs returned 0, so there is no failure to report
      constructor
      · intro _
        by_cases hnil : selected hy request sack n = []
        · exact Or.inl ⟨hop, hnil⟩
        · right
          have hlen : (selected hy request sack n).length ≠ 0 := by simpa using hnil
          refine ⟨by simp [List.getLast?_replicate, hnil], ?_⟩
          unfold HoldsAll
          rw [if_neg hop]
          intro pkg hpkg job hjob
          exact List.mem_flatMap.2 ⟨pkg, hpkg, hjob⟩
      · rintro ⟨rc, hrc, hne⟩
        exact absurd (List.eq_of_mem_replicate hrc) hne

/-- **Update of all**: the reply is right if the run succeeds, or if the register happens to
hold -1. -/
theorem updateAll_tellsTruth_iff {r : DepResult} {plist : List HyPackage} {reg : ℤ}
    (h : query hy request sack .getUpdateAll n = .ok r) :
    TellsTruth .getUpdateAll plist reg r ↔ hy.goalRun 0 = 0 ∨ reg = -1 := by
  obtain ⟨json, lists, hbuilt, hq⟩ := @query_updateAll hy request sack n
  rw [hq] at h
  cases h
  have hcode := @replyCode_secondReply reg { ret := none, answer := json, goal :=
    { goal := [.upgradeAll], runs := [hy.goalRun 0] } } _ hbuilt.rooted
  rw [Option.getD_none] at hcode
  constructor
  · rintro ⟨-, hfail⟩
    -- the run failed and the register does not say so
    by_contra hn
    push Not at hn
    have hnodep := hfail ⟨_, List.mem_singleton.2 rfl, hn.1⟩
    rw [hcode, if_neg hn.2] at hnodep
    cases hnodep
  · rintro (h0 | hreg)
    · refine ⟨fun _ => Or.inr ⟨by simp [h0], by simp [HoldsAll]⟩, ?_⟩
      rintro ⟨rc, hrc, hne⟩
      rw [List.mem_singleton.1 hrc] at hne
      exact absurd h0 hne
    · rw [if_pos hreg] at hcode
      refine ⟨?_, fun _ => hcode⟩
      intro hok
      rw [hcode] at hok
      cases hok

/-- **Success is reported only for solved goals**, by a value that is there to compare. -/
def SuccessOnlyIfSolved (hy : Hawkey) (request : ℕ → Ptr String) (sack : HySack)
    (operation : Code) (n : ℕ) (reg : ℤ) : Prop :=
  ∃ r, query hy request sack operation n = .ok r ∧ (∃ v, r.ret = some v) ∧
    TellsTruth operation (selected hy request sack n) reg r

/-- **When the query has a value** that its caller can compare: packages were asked for by
name, and the goal of one of those selected could not be solved. -/
theorem success_reported_iff (hy : Hawkey) (request : ℕ → Ptr String) (sack : HySack)
    (operation : Code) (n : ℕ) (reg : ℤ) :
    SuccessOnlyIfSolved hy request sack operation n reg ↔
      operation ≠ .getUpdateAll ∧ Unsolved hy request sack n := by
  constructor
  · rintro ⟨r, hr, ⟨v, hv⟩, -⟩
    have hop : operation ≠ .getUpdateAll := by
      rintro rfl
      obtain ⟨json, lists, -, hq⟩ := @query_updateAll hy request sack n
      rw [hq] at hr
      cases hr
      cases hv
    refine ⟨hop, ?_⟩
    by_contra hun
    cases hnames : requestNames request n with
    | error e =>
      unfold query ssdsDepQuery at hr
      simp only [if_neg hop, hnames, bind, Except.bind] at hr
      cases hr
    | ok names =>
      obtain ⟨json, lists, -, hq⟩ := query_solved hop hnames hun
      rw [hq] at hr
      cases hr
      cases hv
  · rintro ⟨hop, hun⟩
    obtain ⟨goal, hq, -⟩ := query_unsolved hop hun
    exact ⟨_, hq, ⟨_, rfl⟩, named_tellsTruth hop hq reg⟩

/-- hawkey on a sack whose packages cannot all be updated. -/
def brokenUpdate : Hawkey where
  fnmatch _ _ := false
  goalRun _ := 1
  solution _ := ⟨[], [], [], [], []⟩

/-- **A failed update of all is reported as a success.** -/
theorem failed_update_reported :
    ¬ SuccessOnlyIfSolved brokenUpdate (fun _ => .null) [] .getUpdateAll 0 0 ∧
    ∃ r, query brokenUpdate (fun _ => .null) [] .getUpdateAll 0 = .ok r ∧
      r.goal.runs = [1] ∧ replyCode (secondReply 0 r) = .ok Code.answerOk.num := by
  obtain ⟨json, lists, hbuilt, hq⟩ := @query_updateAll brokenUpdate (fun _ => .null) [] 0
  constructor
  · rintro ⟨r, hr, ⟨v, hv⟩, -⟩
    rw [hq] at hr
    cases hr
    cases hv
  · refine ⟨_, hq, rfl, ?_⟩
    rw [replyCode_secondReply hbuilt.rooted]
    rfl

end Rds
