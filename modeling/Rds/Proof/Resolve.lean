import Rds.Proof.Answer
import Rds.Proof.Request
import Rds.Proof.Solve
import Rds.Spec.Outcome

/-!
# A request and its decision

* `requestNames_heard`: which names the server looks up.
* `query_tells`: the second reply tells the decision.
* `getBranch_resolved`, `getBranch_unresolved`: what the server does with a request, whatever the
  repositories and packages in it.
* `Tells.answerProcess`: **what the client makes of the reply** is what it does about the decision.
-/

namespace Rds

/-! ## The names -/

theorem namesFrom_append {request : ℕ → Ptr String} (m : ℕ) : ∀ (names : List String) (i : ℕ),
    (∀ j (hj : j < names.length), request (i + j) = .good names[j]) →
    namesFrom request (names.length + m) i =
      (namesFrom request m (i + names.length)).map (names ++ ·) := by
  intro names
  induction names with
  | nil =>
    intro i _
    rw [List.length_nil, Nat.zero_add, Nat.add_zero]
    cases namesFrom request m i <;> rfl
  | cons name names ih =>
    intro i h
    have hslot : request i = .good name := h 0 (by simp)
    have hnext := ih (i + 1) fun j hj => by
      have := h (j + 1) (by simpa using hj)
      rw [show i + 1 + j = i + (j + 1) by omega]
      exact this
    have hlen : (name :: names).length + m = names.length + m + 1 := by simp; omega
    have hi : i + (name :: names).length = i + 1 + names.length := by simp; omega
    rw [hlen, namesFrom, hslot, hi]
    simp only [hnext]
    cases namesFrom request m (i + 1 + names.length) <;> rfl

/-- **The names that are looked up**, of an array that holds the names requested, its old slot
behind them, and `NULL` behind that. -/
theorem requestNames_heard {request : ℕ → Ptr String} {slot : Ptr String} {names : List String}
    (hnames : ∀ i (hi : i < names.length), request i = .good names[i])
    (hslot : request names.length = slot) (hend : request (names.length + 1) = .null) :
    requestNames request names.length = heardNames slot names := by
  unfold requestNames
  match names with
  | [] =>
    rw [if_neg (by simp)]
    have h0 : request 0 = slot := hslot
    rw [h0]
    cases slot <;> rfl
  | [name] =>
    rw [if_neg (by simp)]
    have h0 : request 0 = .good name := hnames 0 (by simp)
    rw [h0]
    rfl
  | name :: name' :: rest =>
    have hmore : (name :: name' :: rest).length > 1 := by simp
    have hall := @namesFrom_append request 2 (name :: name' :: rest) 0 fun j hj => by
      rw [Nat.zero_add]
      exact hnames j hj
    rw [Nat.zero_add] at hall
    rw [if_pos hmore, hall]
    unfold namesFrom
    rw [hslot]
    cases slot with
    | null => simp [heardNames, Except.map]
    | wild => rfl
    | good s =>
      simp only
      unfold namesFrom
      rw [hend]
      rfl

/-! ## The repositories -/

theorem SsdsRepoInfo.kept_head (r : SsdsRepoInfo) : r.kept.urls.head? = r.urls.head? := by
  unfold kept
  by_cases h : r.type = 1
  · simp [h]
  · simp only [if_neg h]
    cases r.urls <;> rfl

theorem urlOption_kept (r : SsdsRepoInfo) : urlOption r.kept = urlOption r := by
  have htype : r.kept.type = r.type := rfl
  unfold urlOption
  rw [htype, r.kept_head]
  by_cases h : r.type = 1
  · simp [SsdsRepoInfo.kept, h]
  · split <;> first | rfl | exact absurd ‹_› h

theorem metadataLoc_kept (path : String) (md : Metadata) (r : SsdsRepoInfo) :
    metadataLoc path md r.kept = metadataLoc path md r := by
  unfold metadataLoc
  rw [r.kept_head]

theorem locateOne_kept (st : Cache × List SsdsMetadataFilesLoc) (r : SsdsRepoInfo) (d : Download) :
    locateOne st (r.kept, d) = locateOne st (r, d) := by
  have hname : r.kept.name = r.name := rfl
  unfold locateOne localRepoMetadata downloadRepoMetadataByUrl
  simp only [urlOption_kept, metadataLoc_kept, hname]

/-- Nothing the builder leaves out of a repository is missed. -/
theorem Env.locate_kept (env : Env) (tick : ℕ) (cache : Cache) (repos : List SsdsRepoInfo) :
    env.locate tick cache (repos.map SsdsRepoInfo.kept) = env.locate tick cache repos := by
  unfold locate ssdsLocateRepoMetadata
  rw [List.zipIdx_map, List.map_map, List.foldl_map, List.foldl_map]
  congr 1
  funext st r
  exact locateOne_kept st r.1 _

/-! ## The server -/

/-- What the second reply says about the decision. -/
def Tells (doc : Json) : Option HySolution → Prop
  | none => replyCode doc = .ok Code.answerNoDep.num
  | some goal => doc = answerDoc .answerOk (answerLists goal)

variable {hy : Hawkey} {request : ℕ → Ptr String} {sack : HySack} {operation : Code} {n : ℕ}

/-- A goal that was put into the message is told unless the register holds -1. -/
theorem tells_built {json : SsdsJsonCreate} {goal : HySolution}
    (h : Built json .answerOk (answerLists goal)) (reg : ℤ) (st : GoalState) :
    Tells (secondReply reg { ret := none, answer := json, goal := st })
      (if reg = -1 then none else some goal) := by
  by_cases hreg : reg = -1
  · have hcode := @replyCode_secondReply reg { ret := none, answer := json, goal := st } _ h.rooted
    rw [Option.getD_none, if_pos hreg] at hcode
    rw [if_pos hreg]
    exact hcode
  · rw [if_neg hreg]
    unfold Tells secondReply solvedMessage
    rw [Option.getD_none, if_neg hreg]
    exact (h.insertCode .answerOk).toString (by simp [answerLists])

/-- **The query and its second reply** tell the decision. -/
theorem query_tells {names : List String}
    (hnames : operation ≠ .getUpdateAll → requestNames request n = .ok names) (reg : ℤ) :
    ∃ r, query hy request sack operation n = .ok r ∧
      Tells (secondReply reg r) (solvedGoal hy reg operation names sack) := by
  unfold solvedGoal
  by_cases hop : operation = .getUpdateAll
  · obtain ⟨json, hjson, hbuilt⟩ := (Built.init .answerOk).pkgsInsert (hy.solution [.upgradeAll])
    refine ⟨⟨none, json, [.upgradeAll], [hy.goalRun 0]⟩, ?_, ?_⟩
    · unfold query ssdsDepQuery hyGoalRun
      rw [if_pos hop]
      exact bind_eq_ok.2 ⟨json, hjson, rfl⟩
    · rw [if_pos hop]
      exact tells_built hbuilt reg _
  · have hread := hnames hop
    have hsel : selected hy request sack n = selectPkgs hy names sack := by
      unfold selected
      rw [hread]
    rw [if_neg hop]
    by_cases hall : ∀ k < (selectPkgs hy names sack).length, hy.goalRun k = 0
    · obtain ⟨st, hloop, hgoal⟩ : ∃ st, goalLoop hy operation (selectPkgs hy names sack)
          { goal := [], runs := [] } = (true, st) ∧
            st.goal = (selectPkgs hy names sack).flatMap (goalJob operation) :=
        ⟨_, goalLoop_solved fun k hk => by simpa using hall k hk, List.nil_append _⟩
      obtain ⟨json, hjson, hbuilt⟩ := (Built.init .answerOk).pkgsInsert (hy.solution st.goal)
      refine ⟨⟨none, json, st⟩, ?_, ?_⟩
      · unfold query ssdsDepQuery
        rw [if_neg hop, bind_of_ok hread, hloop]
        exact bind_eq_ok.2 ⟨json, hjson, rfl⟩
      · simp only [if_pos hall]
        rw [← hgoal]
        exact tells_built hbuilt reg st
    · have hun : Unsolved hy request sack n := by
        unfold Unsolved
        rw [hsel]
        push Not at hall
        exact hall
      obtain ⟨goal, hq, -⟩ := query_unsolved hop hun
      refine ⟨_, hq, ?_⟩
      have hcode := @replyCode_secondReply reg
        { ret := some (-1), answer := ssdsJsCrInit .answerOk, goal } _ (Rooted.init .answerOk)
      rw [Option.getD_some, if_pos rfl] at hcode
      simp only [if_neg hall, ite_self]
      exact hcode

/-- A query whose names cannot be read. -/
theorem query_error (hop : operation ≠ .getUpdateAll) {e : Halt}
    (hnames : requestNames request n = .error e) :
    query hy request sack operation n = .error e := by
  unfold query ssdsDepQuery
  rw [if_neg hop, hnames]
  rfl

variable {env : Env} {doc : Json} {pkgs : List String} {repos : List SsdsRepoInfo}

/-- **The array of names**, as the server makes it of a request. -/
theorem HasLists.requestPkgs (hdoc : HasLists doc pkgs repos) (hop : operation ≠ .getUpdateAll)
    (slots : ℕ → Ptr String) :
    ∃ request, requestPkgs slots operation (.ofRoot (some doc)) = .ok (request, pkgs.length) ∧
      requestNames request pkgs.length = heardNames (slots pkgs.length) pkgs := by
  obtain ⟨root, data, rfl, hmember, hstrings, hfound, -⟩ := hdoc
  have hobj := dataObj_root root
  rw [hmember] at hobj
  have hlen : pkgs.length = jsonArrayGetLength (jsonObjectGetArrayMember (some data) "req_pkgs") :=
    (strings_iff.1 hstrings).1
  obtain ⟨request, hrequest⟩ := (ssdsJsRdGetPackages_returns_iff hobj slots).2 ⟨pkgs, hstrings⟩
  refine ⟨request, ?_, ?_⟩
  · unfold Rds.requestPkgs
    rw [if_neg hop, ssdsJsRdGetCount_root, hfound]
    exact bind_eq_ok.2 ⟨_, rfl, bind_eq_ok.2 ⟨_, hrequest, rfl⟩⟩
  · refine requestNames_heard (ssdsJsRdGetPackages_slots hobj hstrings hrequest) ?_ ?_
    all_goals
      unfold ssdsJsRdGetPackages at hrequest
      rw [bind_of_ok hobj] at hrequest
      obtain ⟨filled, hfilled, hlast⟩ := bind_eq_ok.1 hrequest
      cases hlast
      have hlen' : jsonArrayGetLength (jsonObjectGetArrayMember
          (jsonNodeGetObject (some (.obj data))) "req_pkgs") = pkgs.length := hlen.symm
      rw [hlen'] at hfilled ⊢
    -- the terminator is not next to the last name
    · rw [Function.update_of_ne (by omega)]
      exact (getPackagesLoop_ok_iff.1 hfilled).2 _ (by omega)
    · exact Function.update_self _ _ _

/-- The repositories, as the server reads them. -/
theorem HasLists.repoInfo (hdoc : HasLists doc pkgs repos) (hvalid : ∀ r ∈ repos, r.Valid) :
    ssdsJsRdRepoInfo (.ofRoot (some doc)) = .ok (repos.map SsdsRepoInfo.kept) :=
  (hdoc.readBack hvalid fun _ => .wild).repos

/-- The message that acknowledges a request. -/
def ackDoc : Json := ssdsJsCrToString (ssdsJsCrInit .answerOk)

/-- The server after a request that was answered by `doc`. -/
def Server.answered (sv : Server) (cache : Cache) (doc : Json) : Server :=
  { sv with cache, sent := sv.sent ++ [ackDoc, doc], tick := sv.tick + 1, clientEnd := true }

/-- **A request that is decided** is answered by the decision. -/
theorem getBranch_resolved (hdoc : HasLists doc pkgs repos) (hvalid : ∀ r ∈ repos, r.Valid)
    {sv : Server} {goal : Option HySolution}
    (h : env.resolve sv.tick sv.cache operation pkgs repos = .ok goal) :
    ∃ reply, Tells reply goal ∧
      getBranch env operation (ssdsJsCrInit .answerOk) (.ofRoot (some doc)) sv =
        .ok (.ok, sv.answered (env.locate sv.tick sv.cache repos).1 reply) := by
  unfold Env.resolve at h
  obtain ⟨names, hnames, h⟩ := bind_eq_ok.1 h
  cases h
  obtain ⟨request, n, hrequest, hread⟩ : ∃ request n,
      requestPkgs (env.slots sv.tick) operation (.ofRoot (some doc)) = .ok (request, n) ∧
        (operation ≠ .getUpdateAll → requestNames request n = .ok names) := by
    by_cases hop : operation = .getUpdateAll
    · refine ⟨env.slots sv.tick, 0, ?_, fun hne => absurd hop hne⟩
      unfold requestPkgs
      rw [if_pos hop]
      rfl
    · obtain ⟨request, hrequest, hheard⟩ := hdoc.requestPkgs hop (env.slots sv.tick)
      unfold Env.requested at hnames
      rw [if_neg hop] at hnames
      exact ⟨request, _, hrequest, fun _ => hheard.trans hnames⟩
  obtain ⟨r, hr, htells⟩ := @query_tells (env.hawkey sv.tick) request
    (env.sack sv.tick (ssdsFillSack (env.locate sv.tick sv.cache repos).2)) operation n names hread
    (env.reg sv.tick)
  refine ⟨_, htells, ?_⟩
  rw [← env.locate_kept] at hr ⊢
  unfold getBranch
  refine bind_eq_ok.2 ⟨(request, n), hrequest, bind_eq_ok.2 ⟨_, hdoc.repoInfo hvalid, ?_⟩⟩
  refine bind_eq_ok.2 ⟨r, hr, ?_⟩
  unfold Server.answered Server.reply Server.tock ackDoc secondReply
  simp only [List.append_assoc, List.cons_append, List.nil_append]
  rfl

/-- **A request that cannot be decided** halts the server. -/
theorem getBranch_unresolved (hdoc : HasLists doc pkgs repos) (hvalid : ∀ r ∈ repos, r.Valid)
    {sv : Server} {e : Halt}
    (h : env.resolve sv.tick sv.cache operation pkgs repos = .error e) :
    getBranch env operation (ssdsJsCrInit .answerOk) (.ofRoot (some doc)) sv = .error e := by
  unfold Env.resolve at h
  rcases bind_eq_error.1 h with hnames | ⟨names, -, h⟩
  · unfold Env.requested at hnames
    have hop : operation ≠ .getUpdateAll := by
      intro hop
      rw [if_pos hop] at hnames
      cases hnames
    rw [if_neg hop] at hnames
    obtain ⟨request, hrequest, hheard⟩ := hdoc.requestPkgs hop (env.slots sv.tick)
    unfold getBranch
    refine bind_eq_error.2 (Or.inr ⟨_, hrequest, bind_eq_error.2 (Or.inr ⟨_, hdoc.repoInfo hvalid, ?_⟩)⟩)
    exact bind_eq_error.2 (Or.inl (query_error hop (hheard.trans hnames)))
  · cases h

/-! ## The client -/

theorem answerCells_eq (pkgs : List HyPackage) :
    answerCells pkgs = none :: (answerOrder pkgs).map some := by
  unfold answerCells answerOrder answerPkg
  rw [List.map_map]
  rfl

/-- **What the client does with the second reply** is what it does about the decision. -/
theorem Tells.answerProcess {goal : Option HySolution} (h : Tells doc goal) (lr : Librepo)
    (rpm : Rpm) (stdin : List Char) (fresh : SsdsJsonRead) :
    ssdsAnswerProcess lr rpm stdin fresh (.document (some doc)) = carryOut lr rpm stdin goal := by
  unfold ssdsAnswerProcess Delivery.parse
  cases goal with
  | none =>
    have hcode : ssdsJsRdGetCode (.ofRoot (some doc)) = .ok Code.answerNoDep.num := h
    simp only [bind_of_ok hcode]
    rfl
  | some goal =>
    have hdoc : doc = answerDoc .answerOk (answerLists goal) := h
    have hcode : ssdsJsRdGetCode (.ofRoot (some doc)) = .ok Code.answerOk.num := by
      rw [hdoc]
      rfl
    have hund : Understood (.ofRoot (some doc)) goal := by
      rw [hdoc]
      exact answerDoc_understood _ goal
    simp only [bind_of_ok hcode]
    have hok : ¬ (Code.answerOk.num = Code.answerWarning.num ∨
        Code.answerOk.num = Code.answerError.num) := by decide
    have hdep : ¬ Code.answerOk.num = Code.answerNoDep.num := by decide
    rw [if_neg hok, if_neg hdep]
    unfold answerPackages carryOut
    rw [bind_of_ok hund.install.count, bind_of_ok hund.upgrade.count, bind_of_ok hund.erase.count,
      bind_of_ok hund.obsolete.count, bind_of_ok hund.install.cells, bind_of_ok hund.upgrade.cells,
      bind_of_ok hund.erase.cells]
    simp only [List.length_eq_zero_iff, answerCells_eq, ne_eq]
    rfl

end Rds
