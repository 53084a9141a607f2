import Rds.Proof.Builder
import Rds.Proof.Messages
import Rds.Proof.Transaction

/-!
# From the solver's decision to the transaction

* `answerDoc_reads`: what the client's getters read back, list by list.
* `answer_carried_out`: what the client does with it if the user agrees and nothing fails.
  A package to erase goes by its name, so every installed package of that name is erased.
-/

namespace Rds

/-! ## Reading the answer -/

/-- What the client gets to know of a package. The metalink is the name of the repository. -/
def answerPkg (p : HyPackage) : SsdsJsonPkg where
  pkgName := some p.name
  pkgLoc := p.location
  baseUrl := p.baseurl
  metalink := if p.baseurl = none then some p.reponame else none

theorem answerPkgAt_eq {es : List Json} {i : ℕ} {p : HyPackage} (h : es[i]? = some (pkgJson p)) :
    answerPkgAt (some es) i = answerPkg p := by
  have hobj : jsonArrayGetObjectElement (some es) i = some
      [("pkg_name", .str p.name), ("pkg_loc", jsonOfString p.location),
        ("base_url", jsonOfString p.baseurl), ("metalink", .str p.reponame)] := by
    simp [jsonArrayGetObjectElement, jsonArrayGetElement, h, pkgJson, jsonNodeGetObject]
  have hloc : jsonNodeGetString (some (jsonOfString p.location)) = p.location := by
    cases p.location <;> rfl
  unfold answerPkgAt
  rw [hobj]
  -- the metalink is read only for a package without a base url
  cases hb : p.baseurl with
  | none =>
    simp [jsonObjectGetStringMember, jsonObjectGetMember, jsonObjectGetNullMember, Json.lookup_cons_eq,
      jsonNodeGetString, jsonOfString, answerPkg, hb]
    exact hloc
  | some url =>
    simp [jsonObjectGetStringMember, jsonObjectGetMember, jsonObjectGetNullMember, Json.lookup_cons_eq,
      jsonNodeGetString, jsonOfString, answerPkg, hb]
    exact hloc

/-- **Decoding an array** gives its packages, each once and in order. -/
theorem answerPkgs_eq (pkgs : List HyPackage) :
    (List.range pkgs.length).map (fun i => some (answerPkgAt (some (pkgs.map pkgJson)) i)) =
      pkgs.map fun p => some (answerPkg p) := by
  apply List.ext_getElem
  · simp
  · intro i hi hi'
    have hlt : i < pkgs.length := by simpa using hi'
    have helem : (pkgs.map pkgJson)[i]? = some (pkgJson pkgs[i]) := by simp [hlt]
    rw [List.getElem_map, List.getElem_range, List.getElem_map, answerPkgAt_eq helem]

/-- The members of a package's object. -/
def pkgMembers : List String := ["pkg_name", "pkg_loc", "base_url", "metalink"]

theorem descend_pkgJson {name : String} (hname : name ∉ pkgMembers) (p : HyPackage) :
    Json.descend name (pkgJson p) = [] := by
  have hscalar : ∀ s, (jsonOfString s).Scalar := by intro s; cases s <;> trivial
  apply Json.descend_obj_flat
  · simp only [List.forall_mem_cons]
    exact ⟨trivial, hscalar _, hscalar _, trivial, by simp⟩
  · simp only [pkgMembers, List.mem_cons, List.not_mem_nil, or_false, not_or] at hname
    simp only [List.forall_mem_cons]
    exact ⟨Ne.symm hname.1, Ne.symm hname.2.1, Ne.symm hname.2.2.1, Ne.symm hname.2.2.2, by simp⟩

/-- The query for an array's name finds that array only. -/
theorem descend_arrays {name : String} (hname : name ∉ pkgMembers)
    (lists : List (String × List HyPackage)) :
    Json.descendMembers name (lists.map fun l => (l.1, .arr (l.2.reverse.map pkgJson))) =
      (lists.filter fun l => l.1 = name).map fun l => .arr (l.2.reverse.map pkgJson) := by
  induction lists with
  | nil => simp [Json.descendMembers]
  | cons l lists ih =>
    rw [List.map_cons, Json.descendMembers, Json.descendMember, ih]
    by_cases hl : l.1 = name
    · rw [if_pos hl, List.filter_cons_of_pos (by simpa using hl)]
      rfl
    -- no package has a member of that name
    · have hnil : Json.descend name (.arr (l.2.reverse.map pkgJson)) = [] := by
        rw [Json.descend]
        apply Json.descendElems_eq_nil
        intro e he
        obtain ⟨p, -, rfl⟩ := List.mem_map.1 he
        exact descend_pkgJson hname p
      rw [if_neg hl, hnil, List.filter_cons_of_neg (by simpa using hl)]
      rfl

/-- What a reader holds of one list of a goal. -/
structure Reads (r : SsdsJsonRead) (name : String) (pkgs : List HyPackage) : Prop where
  count : ssdsJsRdGetCount r name = .ok pkgs.length
  answer : ssdsJsRdParseAnswer name r = .ok (none :: pkgs.reverse.map fun p => some (answerPkg p))

theorem reads_of_lookup {c : Code} {lists : List (String × List HyPackage)} {name : String}
    {pkgs : List HyPackage} (hname : name ∉ pkgMembers)
    (hfilter : lists.filter (fun l => l.1 = name) = [(name, pkgs)])
    (hlookup : (lists.map fun l => (l.1, Json.arr (l.2.reverse.map pkgJson))).lookup name =
      some (.arr (pkgs.reverse.map pkgJson))) :
    Reads (.ofRoot (some (answerDoc c lists))) name pkgs := by
  have hpath : jsonPathMatchData name (some (answerDoc c lists)) =
      some [.arr (pkgs.reverse.map pkgJson)] := by
    have hdesc := descend_arrays hname lists
    rw [hfilter] at hdesc
    exact congrArg some hdesc
  have hcount : ssdsJsRdGetCount (.ofRoot (some (answerDoc c lists))) name = .ok pkgs.length := by
    unfold ssdsJsRdGetCount SsdsJsonRead.ofRoot
    simp only [Ptr.get_of, bind, Except.bind, pure, Except.pure, hpath]
    simp [jsonArrayGetArrayElement, jsonArrayGetElement, jsonNodeGetArray, jsonArrayGetLength]
  refine ⟨hcount, ?_⟩
  have hdata : (SsdsJsonRead.ofRoot (some (answerDoc c lists))).dataObj =
      .good (lists.map fun l => (l.1, Json.arr (l.2.reverse.map pkgJson))) := rfl
  unfold ssdsJsRdParseAnswer
  rw [hcount, hdata]
  simp only [Ptr.get, bind, Except.bind, pure, Except.pure, jsonObjectGetArrayMember,
    jsonObjectGetMember, Option.bind_some, hlookup, jsonNodeGetArray]
  have hpkgs := answerPkgs_eq pkgs.reverse
  rw [List.length_reverse] at hpkgs
  rw [hpkgs]

/-- **What the client reads back.** -/
theorem answerDoc_reads (c : Code) (goal : HySolution) :
    ∀ l ∈ answerLists goal, Reads (.ofRoot (some (answerDoc c (answerLists goal)))) l.1 l.2 := by
  intro l hl
  simp only [answerLists, List.mem_cons, List.not_mem_nil, or_false] at hl
  rcases hl with rfl | rfl | rfl | rfl
  · have hname : "install" ∉ pkgMembers := by decide
    exact reads_of_lookup hname (by simp [answerLists]) (by simp [answerLists])
  · have hname : "upgrade" ∉ pkgMembers := by decide
    exact reads_of_lookup hname (by simp [answerLists]) (by simp [answerLists, Json.lookup_cons_eq])
  · have hname : "erase" ∉ pkgMembers := by decide
    exact reads_of_lookup hname (by simp [answerLists]) (by simp [answerLists, Json.lookup_cons_eq])
  · have hname : "obsolete" ∉ pkgMembers := by decide
    exact reads_of_lookup hname (by simp [answerLists]) (by simp [answerLists, Json.lookup_cons_eq])

/-! ## Carrying it out -/

/-- The packages the client works on: from the last to the first. -/
def answerOrder (pkgs : List HyPackage) : List SsdsJsonPkg := pkgs.reverse.map answerPkg

theorem answerOrder_length (pkgs : List HyPackage) : (answerOrder pkgs).length = pkgs.length := by
  simp [answerOrder]

theorem Reads.cells {r : SsdsJsonRead} {name : String} {pkgs : List HyPackage}
    (h : Reads r name pkgs) :
    ssdsJsRdParseAnswer name r = .ok (none :: (answerOrder pkgs).map some) := by
  rw [h.answer, answerOrder, List.map_map]
  rfl

theorem pkgCells_some (pkgs : List SsdsJsonPkg) : pkgCells (pkgs.map some) = .ok pkgs := by
  induction pkgs with
  | nil => rfl
  | cons pkg pkgs ih =>
    rw [List.map_cons, pkgCells, ih]
    rfl

theorem downloadTargets_some (pkgs : List SsdsJsonPkg) :
    downloadTargets (none :: pkgs.map some) = .ok (pkgs.map newTarget) := by
  unfold downloadTargets
  rw [List.drop_one, List.tail_cons, pkgCells_some]
  rfl

/-- The `k`-th download, of the targets for these packages. -/
def downloadOf (lr : Librepo) (k : ℕ) (pkgs : List HyPackage) : List LrPackageTarget :=
  (lrDownloadPackages lr k ((answerOrder pkgs).map newTarget)).2

/-- One target for each package. -/
theorem downloadOf_length (lr : Librepo) (k : ℕ) (pkgs : List HyPackage) :
    (downloadOf lr k pkgs).length = pkgs.length := by
  simp [downloadOf, lrDownloadPackages, answerOrder]

/-- **Every step succeeds**: the downloads, opening, reading and adding each file, and
finding and adding what is to be erased. -/
structure StepsSucceed (lr : Librepo) (rpm : Rpm) (goal : HySolution) : Prop where
  succeeds : ∀ k, lr.succeeds k = true
  err : ∀ k i, lr.err k i = none
  addable : AllAddable rpm (downloadOf lr 0 goal.installs) (downloadOf lr 1 goal.upgrades)
    (answerOrder goal.erasures)

theorem downloadOf_err {lr : Librepo} (h : ∀ k i, lr.err k i = none) (k : ℕ)
    (pkgs : List HyPackage) : ∀ t ∈ downloadOf lr k pkgs, t.err = none := by
  intro t ht
  obtain ⟨i, hi, rfl⟩ := List.mem_iff_getElem.1 ht
  simp [downloadOf, lrDownloadPackages, h]

/-- Names whose matches can all be added are no reason to stop. -/
theorem Rpm.eraseRc_eq_zero {rpm : Rpm} {k : ℕ} (h : ∀ m ∈ rpm.found k, m.Added) :
    rpm.eraseRc k = 0 := by
  unfold Rpm.eraseRc
  revert h
  induction rpm.found k with
  | nil => intro _; rfl
  | cons m found ih =>
    intro h
    obtain ⟨hm, hfound⟩ := List.forall_mem_cons.1 h
    rw [List.foldl_cons]
    split
    · rw [hm.2]; exact ih hfound
    · exact ih hfound

/-- **The transaction when every step succeeds.** -/
theorem StepsSucceed.rpmProcess {lr : Librepo} {rpm : Rpm} {goal : HySolution}
    (h : StepsSucceed lr rpm goal) :
    ∃ r, ssdsRpmProcess rpm (downloadOf lr 0 goal.installs) (downloadOf lr 1 goal.upgrades)
        (none :: (answerOrder goal.erasures).map some) = .ok r ∧ r.ran = true ∧
      r.ts.elements = wholeTransaction rpm (downloadOf lr 0 goal.installs)
        (downloadOf lr 1 goal.upgrades) (answerOrder goal.erasures) := by
  have hgo : ¬ Stops rpm (downloadOf lr 0 goal.installs) (downloadOf lr 1 goal.upgrades)
      (answerOrder goal.erasures) := by
    rintro (⟨t, ht, hne⟩ | ⟨t, ht, hne⟩ | ⟨i, hi, hne⟩)
    · exact hne (downloadOf_err h.err _ _ t ht)
    · exact hne (downloadOf_err h.err _ _ t ht)
    · exact hne (Rpm.eraseRc_eq_zero (h.addable.2 i hi).2)
  exact ⟨_, ssdsRpmProcess_run hgo, rfl, (allAddable_iff.1 h.addable).1⟩

/-- **What the client does with a goal**: a target for each package to install or upgrade,
and a transaction of these targets and the packages to erase. -/
def CarriedOut (lr : Librepo) (rpm : Rpm) (goal : HySolution) (a : AnswerResult) : Prop :=
  ∃ dl r, a.download = some dl ∧ dl.install = downloadOf lr 0 goal.installs ∧
    dl.update = downloadOf lr 1 goal.upgrades ∧ dl.rpm = some r ∧ r.ran = true ∧
    r.ts.elements = wholeTransaction rpm dl.install dl.update (answerOrder goal.erasures)

/-- The download after a "yes". -/
theorem StepsSucceed.download {lr : Librepo} {rpm : Rpm} {goal : HySolution}
    (h : StepsSucceed lr rpm goal) :
    ∃ dl r, ssdsDownload lr rpm .yes (none :: (answerOrder goal.installs).map some)
        (none :: (answerOrder goal.upgrades).map some)
        (none :: (answerOrder goal.erasures).map some) = .ok dl ∧
      dl.install = downloadOf lr 0 goal.installs ∧ dl.update = downloadOf lr 1 goal.upgrades ∧
      dl.rpm = some r ∧ r.ran = true ∧
      r.ts.elements = wholeTransaction rpm dl.install dl.update (answerOrder goal.erasures) := by
  obtain ⟨r, hr, hran, hels⟩ := h.rpmProcess
  have h0 : lrDownloadPackages lr 0 ((answerOrder goal.installs).map newTarget) =
      (true, downloadOf lr 0 goal.installs) := Prod.ext (h.succeeds 0) rfl
  have h1 : lrDownloadPackages lr 1 ((answerOrder goal.upgrades).map newTarget) =
      (true, downloadOf lr 1 goal.upgrades) := Prod.ext (h.succeeds 1) rfl
  refine ⟨⟨r.rc, downloadOf lr 0 goal.installs, downloadOf lr 1 goal.upgrades, some r⟩, r, ?_, rfl,
    rfl, rfl, hran, hels⟩
  unfold ssdsDownload
  simp only [downloadTargets_some, bind, Except.bind, h0, h1, hr]
  rfl

/-! ## What is erased -/

/-- The name an element erases, for an element that does. -/
def RpmElement.erasedName : RpmElement → Option (Option String)
  | .install _ _ _ => none
  | .erase _ name _ => some name

theorem targetElements_erased (action : SsdsAction) (k : ℕ) (targets : List LrPackageTarget) :
    (targetElements action k targets).filterMap RpmElement.erasedName = [] := by
  induction targets generalizing k with
  | nil => rfl
  | cons t targets ih =>
    rw [targetElements, List.filterMap_cons_none rfl]
    exact ih (k + 1)

theorem matchElements_erased (k : ℕ) (pkg : Option String) (found : List EraseMatch) :
    (matchElements k pkg found).filterMap RpmElement.erasedName =
      List.replicate found.length pkg := by
  induction found with
  | nil => rfl
  | cons m found ih =>
    rw [List.length_cons, List.replicate_succ, ← ih]
    rfl

/-- **Each package to erase once**: in the transaction set the elements that erase are one
for each package, in order. -/
def ErasesEach (erase : List SsdsJsonPkg) (elements : List RpmElement) : Prop :=
  elements.filterMap RpmElement.erasedName = erase.map SsdsJsonPkg.pkgName

theorem erased_sublist {rpm : Rpm} {k : ℕ} {pkgs : List SsdsJsonPkg}
    (h : ∀ i < pkgs.length, rpm.found (k + i) ≠ []) :
    List.Sublist (pkgs.map SsdsJsonPkg.pkgName)
      ((eraseElements rpm k pkgs).filterMap RpmElement.erasedName) := by
  induction pkgs generalizing k with
  | nil => exact List.nil_sublist _
  | cons pkg pkgs ih =>
    obtain ⟨h0, hrest⟩ := (@forall_offset_succ (fun k => rpm.found k ≠ []) _ _).1 h
    have hlen : 1 ≤ (rpm.found k).length := List.length_pos_iff.2 h0
    rw [eraseElements, List.filterMap_append, matchElements_erased]
    exact ((List.replicate_sublist_replicate pkg.pkgName).2 hlen).append (ih hrest)

/-- **Names erase one package each** exactly if each has one match. -/
theorem eraseElements_each_iff {rpm : Rpm} {k : ℕ} {pkgs : List SsdsJsonPkg}
    (h : ∀ i < pkgs.length, rpm.found (k + i) ≠ []) :
    ErasesEach pkgs (eraseElements rpm k pkgs) ↔
      ∀ i < pkgs.length, (rpm.found (k + i)).length = 1 := by
  induction pkgs generalizing k with
  | nil => simp [ErasesEach, eraseElements]
  | cons pkg pkgs ih =>
    obtain ⟨h0, hrest⟩ := (@forall_offset_succ (fun k => rpm.found k ≠ []) _ _).1 h
    have hlen : 1 ≤ (rpm.found k).length := List.length_pos_iff.2 h0
    have hone : List.replicate 1 pkg.pkgName = List.replicate (rpm.found k).length pkg.pkgName ↔
        (rpm.found k).length = 1 := by
      constructor
      · intro heq
        have := congrArg List.length heq
        simpa using this.symm
      · intro heq
        rw [heq]
    have hsub := (List.replicate_sublist_replicate pkg.pkgName).2 hlen
    unfold ErasesEach at ih ⊢
    rw [eraseElements, List.filterMap_append, matchElements_erased, eq_comm, List.map_cons]
    change List.replicate 1 pkg.pkgName ++ pkgs.map SsdsJsonPkg.pkgName = _ ↔ _
    -- every name has a match, so none of its names can be missing
    rw [append_eq_iff_of_sublist hsub (erased_sublist hrest), hone,
      @eq_comm _ (pkgs.map _), ih hrest, List.length_cons,
      @forall_offset_succ fun k => (rpm.found k).length = 1]

/-- Whether the question about a goal has a third answer. -/
def HySolution.offersDownload (goal : HySolution) : Bool :=
  !(goal.installs.length = 0 ∧ goal.upgrades.length = 0 ∧ goal.erasures.length ≠ 0)

/-- The user is asked about a goal that is not empty. -/
def HySolution.Asks (goal : HySolution) : Prop :=
  ¬ (goal.installs.length = 0 ∧ goal.upgrades.length = 0 ∧ goal.erasures.length = 0 ∧
    goal.obsoleted.length = 0)

instance (goal : HySolution) : Decidable goal.Asks := inferInstanceAs (Decidable (¬ _))

/-- What the client holds of a goal. -/
structure Understood (r : SsdsJsonRead) (goal : HySolution) : Prop where
  install : Reads r "install" goal.installs
  upgrade : Reads r "upgrade" goal.upgrades
  erase : Reads r "erase" goal.erasures
  obsolete : Reads r "obsolete" goal.obsoleted

/-- **From what is read to what is done.** -/
theorem Understood.answerPackages {reader : SsdsJsonRead} {goal : HySolution}
    (h : Understood reader goal) {lr : Librepo} {rpm : Rpm} (hsteps : StepsSucceed lr rpm goal)
    (hasks : goal.Asks) {stdin rest : List Char}
    (hyes : ssdsQuestion goal.offersDownload stdin = .ok (.yes, rest)) (rc : ℤ) :
    ∃ a, answerPackages lr rpm stdin rc reader = .ok a ∧ CarriedOut lr rpm goal a := by
  obtain ⟨dl, r, hdl, hdone⟩ := hsteps.download
  refine ⟨⟨dl.rc, rest, some dl⟩, ?_, dl, r, rfl, hdone⟩
  unfold HySolution.offersDownload at hyes
  unfold HySolution.Asks at hasks
  unfold Rds.answerPackages
  simp only [bind, Except.bind, h.install.count, h.upgrade.count, h.erase.count,
    h.obsolete.count, if_neg hasks, h.install.cells, h.upgrade.cells, h.erase.cells, hyes, hdl]
  rfl

theorem answerDoc_understood (c : Code) (goal : HySolution) :
    Understood (.ofRoot (some (answerDoc c (answerLists goal)))) goal := by
  have hreads := answerDoc_reads c goal
  simp only [answerLists, List.forall_mem_cons] at hreads
  exact ⟨hreads.1, hreads.2.1, hreads.2.2.1, hreads.2.2.2.1⟩

/-- Every name to erase has one match. -/
def OneMatchEach (rpm : Rpm) (goal : HySolution) : Prop :=
  ∀ i < goal.erasures.length,
    (rpm.found (goal.installs.length + goal.upgrades.length + i)).length = 1

/-- Each package the solver erases was erased, once. -/
def ErasedOnce (goal : HySolution) (a : AnswerResult) : Prop :=
  ∃ dl r, a.download = some dl ∧ dl.rpm = some r ∧
    ErasesEach (answerOrder goal.erasures) r.ts.elements

theorem CarriedOut.erasedOnce_iff {lr : Librepo} {rpm : Rpm} {goal : HySolution} {a : AnswerResult}
    (h : CarriedOut lr rpm goal a) (hsteps : StepsSucceed lr rpm goal) :
    ErasedOnce goal a ↔ OneMatchEach rpm goal := by
  obtain ⟨dl, r, hdl, hinst, hupd, hr, -, hels⟩ := h
  have hfound := fun i hi => (hsteps.addable.2 i hi).1
  have hiff := eraseElements_each_iff hfound
  have herased : ErasesEach (answerOrder goal.erasures) r.ts.elements ↔
      ErasesEach (answerOrder goal.erasures) (eraseElements rpm
        ((downloadOf lr 0 goal.installs).length + (downloadOf lr 1 goal.upgrades).length)
        (answerOrder goal.erasures)) := by
    unfold ErasesEach
    rw [hels, wholeTransaction, hinst, hupd, List.filterMap_append, List.filterMap_append,
      targetElements_erased, targetElements_erased, List.nil_append, List.nil_append]
  rw [hiff, answerOrder_length, downloadOf_length, downloadOf_length] at herased
  constructor
  · rintro ⟨dl', r', hdl', hr', he⟩
    obtain rfl : dl = dl' := Option.some.inj (hdl.symm.trans hdl')
    obtain rfl : r = r' := Option.some.inj (hr.symm.trans hr')
    exact herased.1 he
  · intro hone
    exact ⟨dl, r, hdl, hr, herased.2 hone⟩

/-- **What the solver decided is what the client carries out.** The message of a solved goal
is made whatever its lists are. If json-glib reads what it printed, and the text arrives,
the client holds these lists; and if the user then agrees and every step succeeds, it carries
them out. It erases each package once exactly if each name has one match. -/
theorem answer_carried_out (goal : HySolution) :
    ∃ json, ssdsJsCrPkgsInsert (ssdsJsCrInit .answerOk) goal = .ok json ∧
      ∀ (doc : Json) (print : Json → List Byte) (load : List Byte → Option (Option Json))
        (sock : Sock) (fresh : SsdsJsonRead),
        doc = ssdsJsCrToString (ssdsJsCrInsertCode json .answerOk) →
        load (print doc) = some (some doc) → Delivered sock [print doc] →
        ∃ buf t, sockRecv sock = .ok (some buf, t) ∧
          Understood (ssdsJsRdParse load (some buf) fresh).2 goal ∧
          ∀ lr rpm stdin rest, goal.Asks →
            ssdsQuestion goal.offersDownload stdin = .ok (.yes, rest) →
            StepsSucceed lr rpm goal →
            ∃ a, ssdsAnswerProcess lr rpm stdin fresh (.ofBuffer load (some buf)) = .ok a ∧
              CarriedOut lr rpm goal a ∧ (ErasedOnce goal a ↔ OneMatchEach rpm goal) := by
  obtain ⟨json, hjson, hbuilt⟩ := (Built.init .answerOk).pkgsInsert goal
  refine ⟨json, hjson, ?_⟩
  intro doc print load sock fresh hdoc hload hdel
  obtain ⟨buf, t, hrecv, htext, -⟩ := hdel
  have hanswer : doc = answerDoc .answerOk (answerLists goal) := by
    rw [hdoc, (hbuilt.insertCode .answerOk).toString (by simp [answerLists])]
  have hread : load (cstr buf) = some (some doc) := by rw [htext, hload]
  have hund : Understood (.ofRoot (some doc)) goal := by
    rw [hanswer]; exact answerDoc_understood _ goal
  refine ⟨buf, t, hrecv, ?_, ?_⟩
  · rw [ssdsJsRdParse_some hread]
    exact hund
  · intro lr rpm stdin rest hasks hyes hsteps
    have hcode : ssdsJsRdGetCode (.ofRoot (some doc)) = .ok Code.answerOk.num := by
      rw [hanswer]; rfl
    have hd : Delivery.ofBuffer load (some buf) = .document (some doc) := by
      simp only [Delivery.ofBuffer, hread]
    obtain ⟨a, ha, hdone⟩ := hund.answerPackages hsteps hasks hyes Code.answerOk.num
    refine ⟨a, ?_, hdone, hdone.erasedOnce_iff hsteps⟩
    rw [hd]
    unfold ssdsAnswerProcess Delivery.parse
    simp only [bind, Except.bind, hcode]
    exact ha

/-- A goal with one package to install, from a mirror list. -/
def installA : HySolution where
  installs := [{ name := "a", arch := "x86_64", evr := 1, location := some "a.rpm",
                 baseurl := none, reponame := "r" }]
  upgrades := []
  erasures := []
  obsoleted := []
  unneeded := []

/-- Its message. -/
def installAText : List Byte :=
  [123, 34, 99, 111, 100, 101, 34, 58, 49, 49, 44, 34, 100, 97, 116, 97, 34, 58, 123, 34, 105,
    110, 115, 116, 97, 108, 108, 34, 58, 91, 123, 34, 112, 107, 103, 95, 110, 97, 109, 101, 34,
    58, 34, 97, 34, 44, 34, 112, 107, 103, 95, 108, 111, 99, 34, 58, 34, 97, 46, 114, 112, 109,
    34, 44, 34, 98, 97, 115, 101, 95, 117, 114, 108, 34, 58, 110, 117, 108, 108, 44, 34, 109,
    101, 116, 97, 108, 105, 110, 107, 34, 58, 34, 114, 34, 125, 93, 44, 34, 117, 112, 103, 114,
    97, 100, 101, 34, 58, 91, 93, 44, 34, 101, 114, 97, 115, 101, 34, 58, 91, 93, 44, 34, 111,
    98, 115, 111, 108, 101, 116, 101, 34, 58, 91, 93, 125, 125]

/-- The package is installed. -/
theorem answer_carried_out_installA :
    ∃ doc buf a, ssdsAnswerProcess plainLibrepo plainRpm ['y', '\n'] ⟨.wild, .wild, .wild⟩
        (.ofBuffer (loadOnly installAText doc) (some buf)) = .ok a ∧
      CarriedOut plainLibrepo plainRpm installA a := by
  obtain ⟨json, -, h⟩ := answer_carried_out installA
  let doc := ssdsJsCrToString (ssdsJsCrInsertCode json .answerOk)
  have hload : loadOnly installAText doc installAText = some (some doc) := if_pos rfl
  have hlen : installAText.length ≤ maxInputLen := by simp [installAText, maxInputLen]
  have hdel : Delivered ⟨[.got installAText hlen], false⟩ [installAText] := by
    have hframe : IsFrame [.got installAText hlen] :=
      ⟨[], _, rfl, by simp, ReadRes.short_got.2 (by simp [installAText, maxInputLen]), by decide⟩
    have halign : Aligned false [.got installAText hlen] [installAText] :=
      @Aligned.cons false _ [] [] hframe .nil
    refine halign.delivered (by simp [installAText]) ?_
    simp only [List.forall_mem_cons]
    exact ⟨⟨_, _, rfl, by simp [installAText]⟩, by simp⟩
  obtain ⟨buf, t, -, -, hrun⟩ := h doc (fun _ => installAText) (loadOnly installAText doc) _
    ⟨.wild, .wild, .wild⟩ rfl hload hdel
  have hsteps : StepsSucceed plainLibrepo plainRpm installA := by
    refine ⟨fun _ => rfl, fun _ _ => rfl, fun k _ => ⟨rfl, rfl, rfl⟩, fun i hi => ?_⟩
    exact absurd hi (Nat.not_lt_zero i)
  obtain ⟨a, ha, hdone, -⟩ := hrun plainLibrepo plainRpm ['y', '\n'] ['\n'] (by decide) rfl hsteps
  exact ⟨doc, buf, a, ha, hdone⟩

/-- A goal that erases one of the kernels installed. -/
def eraseKernel : HySolution where
  installs := []
  upgrades := []
  erasures := [{ name := "kernel", arch := "x86_64", evr := 1, location := none,
                 baseurl := none, reponame := "@System" }]
  obsoleted := []
  unneeded := []

/-- rpmlib on a machine with two kernels. -/
def twoKernels : Rpm where
  file _ := ⟨true, 0, 0⟩
  found _ := [⟨1, 0⟩, ⟨2, 0⟩]
  run := 0

/-- **Both kernels are erased**, every step a success. -/
theorem both_kernels_erased :
    StepsSucceed plainLibrepo twoKernels eraseKernel ∧ eraseKernel.Asks ∧
    ssdsQuestion eraseKernel.offersDownload ['y'] = .ok (.yes, []) ∧
    ∃ json a, ssdsJsCrPkgsInsert (ssdsJsCrInit .answerOk) eraseKernel = .ok json ∧
      ssdsAnswerProcess plainLibrepo twoKernels ['y'] ⟨.wild, .wild, .wild⟩
        (.document (some (ssdsJsCrToString (ssdsJsCrInsertCode json .answerOk)))) = .ok a ∧
      ¬ ErasedOnce eraseKernel a := by
  have hsteps : StepsSucceed plainLibrepo twoKernels eraseKernel := by
    refine ⟨fun _ => rfl, fun _ _ => rfl, fun k _ => ⟨rfl, rfl, rfl⟩, fun i _ => ⟨by simp [twoKernels], ?_⟩⟩
    simp [twoKernels, EraseMatch.Added]
  refine ⟨hsteps, by decide, rfl, ?_⟩
  obtain ⟨json, hjson, hbuilt⟩ := (Built.init .answerOk).pkgsInsert eraseKernel
  obtain ⟨a, ha, hdone⟩ := (answerDoc_understood .answerOk eraseKernel).answerPackages hsteps
    (by decide) (rfl : ssdsQuestion eraseKernel.offersDownload ['y'] = .ok (.yes, []))
    Code.answerOk.num
  refine ⟨json, a, hjson, ?_, ?_⟩
  · rw [(hbuilt.insertCode .answerOk).toString (by simp [answerLists])]
    exact ha
  · rw [hdone.erasedOnce_iff hsteps]
    intro hone
    exact absurd (hone 0 (by decide)) (by decide)

end Rds
