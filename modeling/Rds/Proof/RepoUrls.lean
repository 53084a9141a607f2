import Rds.Proof.Request
import Rds.Spec.RepoHandler

/-!
# Which repositories a request names

`ssds_get_repo_urls` adds a repository for each one that is enabled, whatever its section sets.

* `getRepoUrl_of_hasUrls`: a repository with urls, of one source, is added as it should be.
* `Listed.getRepoUrls`: how many are added.
* `repo_urls_iff`: when the request names the repositories that have urls, and no others.
-/

namespace Rds

open SsdsJsonCreate

variable {sub : String → LrUrlVars → String} {arch release : String} {json json' : SsdsJsonCreate}
  {conf : LrYumRepoConf} {n : ℕ}

/-- **The entry a repository should get**: all its base urls, else its metalink, else its
mirrorlist, and none for a repository that is not enabled or has no url. -/
def chosenRepo (sub : String → LrUrlVars → String) (arch release : String) (conf : LrYumRepoConf) :
    Option SsdsRepoInfo :=
  let subst (u : String) := sub u (urlVars arch release)
  if conf.enabled then
    match conf.baseurl.getD [], conf.metalink, conf.mirrorlist with
    | u :: us, _, _ => some ⟨(u :: us).map subst, conf.id, SsdsJsonUrlType.baseurl.num⟩
    | [], some u, _ => some ⟨[subst u], conf.id, SsdsJsonUrlType.metalink.num⟩
    | [], none, some u => some ⟨[subst u], conf.id, SsdsJsonUrlType.mirrorlist.num⟩
    | [], none, none => none
  else none

/-- **A repository with urls**: base urls, or no setting for them and another source. -/
def LrYumRepoConf.HasUrls (conf : LrYumRepoConf) : Prop :=
  match conf.baseurl with
  | some urls => urls ≠ []
  | none => conf.metalink.isSome ∨ conf.mirrorlist.isSome

/-- The repositories of a message. -/
def messageRepos (json : SsdsJsonCreate) : List Json :=
  (jsonObjectGetArrayMember (jsonNodeGetObject (jsonObjectGetMember
    (jsonNodeGetObject (some (ssdsJsCrToString json))) "data")) "repolist").getD []

/-- **The request names** the repositories it should, after those it has. -/
def NamesRepos (sub : String → LrUrlVars → String) (arch release : String) (list : List LrYumRepoConf)
    (json : SsdsJsonCreate) : Prop :=
  ∃ json', ssdsGetRepoUrls sub arch release list json = .ok json' ∧
    messageRepos json' =
      messageRepos json ++ (list.filterMap (chosenRepo sub arch release)).map repoJson

/-! ## Repositories with urls -/

/-- The scan goes to the `NULL`. -/
theorem countUrls_eq (urls : List String) (k : ℕ) :
    countUrls (urls.map some ++ [none]) k = .ok (k + urls.length) := by
  induction urls generalizing k with
  | nil => rfl
  | cons u urls ih =>
    rw [List.map_cons, List.cons_append, countUrls, ih, List.length_cons]
    congr 1
    omega

/-- It counts the urls from wherever it starts among them. -/
theorem countUrls_drop {urls : List String} {k : ℕ} (hk : k ≤ urls.length) :
    countUrls ((urls.map some ++ [none]).drop k) k = .ok urls.length := by
  have hmap : k ≤ (urls.map some).length := by rwa [List.length_map]
  rw [List.drop_append_of_le_length hmap, ← List.map_drop, countUrls_eq, List.length_drop]
  congr 1
  omega

/-- The variables before the base urls are looked at. -/
def chooseOther (conf : LrYumRepoConf) : UrlChoice :=
  chooseMetalink conf (chooseMirrorlist conf { url := [], k := 0, type := 0 })

theorem chooseOther_k_le (conf : LrYumRepoConf) : (chooseOther conf).k ≤ 1 := by
  unfold chooseOther chooseMetalink chooseMirrorlist
  cases conf.metalink <;> cases conf.mirrorlist <;> simp

theorem SsdsJsonUrlType.valid (type : SsdsJsonUrlType) {urls : List String} (h : urls ≠ [])
    (name : String) : SsdsRepoInfo.Valid ⟨urls, name, type.num⟩ := by
  have hlow : -2 ^ 31 ≤ type.num := by cases type <;> decide
  have hhigh : type.num < 2 ^ 31 := by cases type <;> decide
  exact ⟨fun _ => h, hlow, hhigh⟩

/-- **The urls, the name and the type** of a repository with urls. -/
theorem getRepoUrl_of_hasUrls (henabled : conf.enabled = true) (h : conf.HasUrls)
    (json : SsdsJsonCreate) :
    ∃ r, chosenRepo sub arch release conf = some r ∧ r.Valid ∧ r.kept = r ∧
      getRepoUrl sub arch release json conf =
        ssdsJsCrAddRepo json r.urls (some r.name) r.type := by
  unfold LrYumRepoConf.HasUrls at h
  have hk := chooseOther_k_le conf
  unfold getRepoUrl chosenRepo
  simp only [if_pos henabled]
  change ∃ r, _ ∧ _ ∧ _ ∧ (chooseBaseurl conf (chooseOther conf) >>= _) = _
  unfold chooseBaseurl
  cases hbase : conf.baseurl with
  | some urls =>
    rw [hbase] at h
    obtain ⟨u, us, rfl⟩ := List.exists_cons_of_ne_nil h
    have hlen : (chooseOther conf).k ≤ (u :: us).length := by
      rw [List.length_cons]
      omega
    refine ⟨_, rfl, SsdsJsonUrlType.baseurl.valid (List.cons_ne_nil _ _) _, rfl, ?_⟩
    simp only [countUrls_drop hlen, bind, Except.bind, pure, Except.pure, List.take_length]
  | none =>
    rw [hbase] at h
    unfold chooseOther chooseMetalink chooseMirrorlist
    cases hmeta : conf.metalink with
    | some u =>
      exact ⟨_, rfl, SsdsJsonUrlType.metalink.valid (List.cons_ne_nil _ _) _, rfl, rfl⟩
    | none =>
      cases hmirror : conf.mirrorlist with
      | some u =>
        exact ⟨_, rfl, SsdsJsonUrlType.mirrorlist.valid (List.cons_ne_nil _ _) _, rfl, rfl⟩
      | none => simp [hmeta, hmirror] at h

/-- The repositories that get an entry are those of one turn each. -/
theorem getRepoUrl_disabled (h : conf.enabled = false) (json : SsdsJsonCreate) :
    chosenRepo sub arch release conf = none ∧
      getRepoUrl sub arch release json conf = .ok json := by
  unfold chosenRepo getRepoUrl
  simp [h, pure, Except.pure]

/-- **The loop adds the repositories it should**, if those that are enabled have urls. -/
theorem ssdsGetRepoUrls_eq {list : List LrYumRepoConf}
    (h : ∀ conf ∈ list, conf.enabled = true → conf.HasUrls) (json : SsdsJsonCreate) :
    ssdsGetRepoUrls sub arch release list json =
      ((list.filterMap (chosenRepo sub arch release)).map CrCall.addRepo).foldlM CrCall.run json := by
  unfold ssdsGetRepoUrls
  induction list generalizing json with
  | nil => rfl
  | cons conf list ih =>
    have hrest := ih fun c hc => h c (List.mem_cons_of_mem _ hc)
    rw [List.foldlM_cons]
    cases henabled : conf.enabled with
    | false =>
      obtain ⟨hnone, hturn⟩ := @getRepoUrl_disabled sub arch release conf henabled json
      rw [hturn, List.filterMap_cons_none hnone]
      exact hrest json
    | true =>
      obtain ⟨r, hr, -, -, hturn⟩ := @getRepoUrl_of_hasUrls sub arch release conf henabled
        (h conf List.mem_cons_self henabled) json
      rw [hturn, List.filterMap_cons_some hr, List.map_cons, List.foldlM_cons]
      have hrun : CrCall.run json (.addRepo r) =
          ssdsJsCrAddRepo json r.urls (some r.name) r.type := rfl
      rw [hrun]
      congr 1
      funext json₁
      exact hrest json₁

theorem chosenRepo_valid {list : List LrYumRepoConf}
    (h : ∀ conf ∈ list, conf.enabled = true → conf.HasUrls) {r : SsdsRepoInfo}
    (hr : r ∈ list.filterMap (chosenRepo sub arch release)) : r.Valid ∧ r.kept = r := by
  obtain ⟨conf, hconf, hsel⟩ := List.mem_filterMap.1 hr
  cases henabled : conf.enabled with
  | false =>
    rw [(getRepoUrl_disabled henabled (ssdsJsCrInit .answerOk)).1] at hsel
    cases hsel
  | true =>
    obtain ⟨r', hr', hvalid, hkept, -⟩ := @getRepoUrl_of_hasUrls sub arch release conf henabled
      (h conf hconf henabled) (ssdsJsCrInit .answerOk)
    obtain rfl : r' = r := Option.some.inj (hr'.symm.trans hsel)
    exact ⟨hvalid, hkept⟩

/-- What a request names. -/
theorem Builds.messageRepos {pkgs : List String} {repos : List SsdsRepoInfo}
    (h : Builds json pkgs repos) : messageRepos json = repos.map fun r => repoJson r.kept := by
  obtain ⟨root, data, hdoc, hmember, -, -, hrepos⟩ := h.hasLists
  unfold Rds.messageRepos
  rw [hdoc]
  simp only [jsonNodeGetObject, hmember]
  exact hrepos

/-! ## The number of repositories -/

/-- **The message has `n` repositories.** -/
structure Listed (json : SsdsJsonCreate) (n : ℕ) : Prop where
  rootObj : json.rootObj = 0
  dataObj : json.dataObj = 1
  root : ∃ c, json.heap[0]? = some (.obj [("code", .int c), ("data", .ref 1)])
  data : ∃ ms, json.heap[1]? = some (.obj ms) ∧
    (ms.lookup "repolist" = none ∧ n = 0 ∨
      ∃ a es, ms.lookup "repolist" = some (.ref a) ∧ json.heap[a]? = some (.arr es) ∧ es.length = n)

theorem Builds.listed {pkgs : List String} {repos : List SsdsRepoInfo}
    (h : Builds json pkgs repos) : Listed json repos.length := by
  obtain ⟨ms, addr, body, hreq, hrepos⟩ := h.request
  refine ⟨h.rootObj, h.dataObj, hreq.root, ms, hreq.data, ?_⟩
  have hlookup : ms.lookup "repolist" = (addr .repos).map .ref := hreq.lookup .repos
  have hlen : repos.length = (reqElems pkgs body .repos).length := by
    rw [← hrepos, reqElems, List.length_map, List.length_map]
  cases haddr : addr .repos with
  | none =>
    rw [haddr] at hlookup
    have hempty := hreq.empty .repos haddr
    rw [hempty] at hlen
    exact Or.inl ⟨hlookup, hlen⟩
  | some a =>
    rw [haddr] at hlookup
    exact Or.inr ⟨a, _, hlookup, hreq.list .repos a haddr, hlen.symm⟩

/-- **The list becomes current**, made if need be. -/
theorem Listed.useArray (h : Listed json n) : ∃ a es ms,
    (useArray json "repolist").currArray = .good a ∧ es.length = n ∧
      (Rds.useArray json "repolist").rootObj = 0 ∧ (Rds.useArray json "repolist").dataObj = 1 ∧
      (∃ c, (Rds.useArray json "repolist").heap[0]? =
        some (.obj [("code", .int c), ("data", .ref 1)])) ∧
      (Rds.useArray json "repolist").heap[1]? = some (.obj ms) ∧
      ms.lookup "repolist" = some (.ref a) ∧
      (Rds.useArray json "repolist").heap[a]? = some (.arr es) := by
  obtain ⟨c, hroot⟩ := h.root
  obtain ⟨ms, hdata, hlist⟩ := h.data
  have hlt : 1 < json.heap.length := (List.getElem?_eq_some_iff.1 hdata).1
  have hmember : json.dataMember "repolist" = ms.lookup "repolist" := by
    unfold SsdsJsonCreate.dataMember
    rw [h.dataObj, hdata]
  unfold Rds.useArray
  rw [hmember]
  rcases hlist with ⟨hnone, rfl⟩ | ⟨a, es, hsome, harr, hlen⟩
  · rw [hnone]
    simp only [Option.isNone_none, if_true, place, h.dataObj, setMemberAt_eq hdata]
    have hsame := sameBut_set json.heap 1
      (.obj (Json.setMember ms "repolist" (.ref json.heap.length))) [.arr []]
    refine ⟨json.heap.length, [], Json.setMember ms "repolist" (.ref json.heap.length), rfl, rfl,
      h.rootObj, trivial, ⟨c, hsame 0 _ (by decide) hroot⟩, ?_, ?_, ?_⟩
    · rw [List.getElem?_append_left (by simpa using hlt)]
      simp [hlt]
    · rw [Json.lookup_setMember, if_pos rfl]
    · rw [List.getElem?_append_right (by simp)]
      simp
  · have harray : json.dataArray "repolist" = some a := by
      unfold SsdsJsonCreate.dataArray
      rw [hmember, hsome]
      simp only [harr]
    rw [hsome, harray]
    exact ⟨a, es, ms, rfl, hlen, h.rootObj, h.dataObj, ⟨c, hroot⟩, hdata, hsome, harr⟩

/-- An array and an object are not at one address. -/
theorem arr_ne_obj {heap : List Container} {a b : ℕ} {es : List Item} {ms : List (String × Item)}
    (ha : heap[a]? = some (.arr es)) (hb : heap[b]? = some (.obj ms)) : a ≠ b := by
  intro hab
  rw [hab, hb] at ha
  cases ha

/-- **Each call adds one**, whatever it is given. -/
theorem Listed.addRepo (h : Listed json n) {url : List String} {name : Option String} {type : ℤ}
    (hadd : ssdsJsCrAddRepo json url name type = .ok json') : Listed json' (n + 1) := by
  obtain ⟨a, es, ms, hcurr, hlen, hrootObj, hdataObj, ⟨c, hroot⟩, hdata, hlookup, harr⟩ :=
    h.useArray
  unfold ssdsJsCrAddRepo at hadd
  generalize Rds.useArray json "repolist" = json₁ at hadd hcurr hrootObj hdataObj hroot hdata harr
  have ha0 := arr_ne_obj harr hroot
  have ha1 := arr_ne_obj harr hdata
  have hlt : a < json₁.heap.length := (List.getElem?_eq_some_iff.1 harr).1
  obtain ⟨arr, hget, hadd⟩ := bind_eq_ok.1 hadd
  rw [hcurr] at hget
  cases hget
  cases hadd
  simp only [addElementAt_eq harr]
  set post : List Container := [.obj _, .arr _]
  set v : Item := .ref json₁.heap.length
  have hsame := sameBut_set json₁.heap a (.arr (es ++ [v])) post
  refine ⟨hrootObj, hdataObj, ⟨c, hsame 0 _ (Ne.symm ha0) hroot⟩, ms,
    hsame 1 _ (Ne.symm ha1) hdata, Or.inr ⟨a, es ++ [v], hlookup, ?_, ?_⟩⟩
  · rw [List.getElem?_append_left (by simpa using hlt)]
    simp [hlt]
  · rw [List.length_append, hlen, List.length_singleton]

/-- **The loop adds one for each repository that is enabled.** -/
theorem Listed.getRepoUrls {list : List LrYumRepoConf} (h : Listed json n)
    (hrun : ssdsGetRepoUrls sub arch release list json = .ok json') :
    Listed json' (n + list.countP LrYumRepoConf.enabled) := by
  unfold ssdsGetRepoUrls at hrun
  induction list generalizing json n with
  | nil =>
    cases hrun
    exact h
  | cons conf list ih =>
    rw [List.foldlM_cons] at hrun
    obtain ⟨json₁, hturn, hrest⟩ := bind_eq_ok.1 hrun
    cases henabled : conf.enabled with
    | false =>
      rw [(getRepoUrl_disabled henabled json).2] at hturn
      cases hturn
      rw [List.countP_cons_of_neg (by simp [henabled])]
      exact ih h hrest
    | true =>
      unfold getRepoUrl at hturn
      simp only [if_pos henabled] at hturn
      obtain ⟨v, -, hturn⟩ := bind_eq_ok.1 hturn
      rw [List.countP_cons_of_pos henabled, Nat.add_comm (list.countP _), ← Nat.add_assoc]
      exact ih (h.addRepo hturn) hrest

/-- **They are all in the message.** -/
theorem Listed.messageRepos_length (h : Listed json n) : (messageRepos json).length = n := by
  obtain ⟨c, hroot⟩ := h.root
  obtain ⟨ms, hdata, hlist⟩ := h.data
  have hlt : 1 < json.heap.length := (List.getElem?_eq_some_iff.1 hdata).1
  obtain ⟨d, hd⟩ : ∃ d, json.heap.length = d + 2 := ⟨json.heap.length - 2, by omega⟩
  have hrepos : messageRepos json = (jsonNodeGetArray
      ((ms.map fun m => (m.1, render json.heap d m.2)).lookup "repolist")).getD [] := by
    unfold messageRepos ssdsJsCrToString
    rw [h.rootObj, hd, render, hroot]
    simp only [List.map_cons, List.map_nil, render, hdata]
    rfl
  rw [hrepos, Json.lookup_map]
  rcases hlist with ⟨hnone, rfl⟩ | ⟨a, es, hsome, harr, hlen⟩
  · rw [hnone]
    rfl
  · have ha : a < d + 2 := hd ▸ (List.getElem?_eq_some_iff.1 harr).1
    have ha0 := arr_ne_obj harr hroot
    have ha1 := arr_ne_obj harr hdata
    obtain ⟨d, rfl⟩ : ∃ k, d = k + 1 := ⟨d - 1, by omega⟩
    rw [hsome, Option.map_some, render, harr]
    simp only [jsonNodeGetArray, Option.getD_some, List.length_map, hlen]

/-! ## The request -/

/-- A turn that is right has urls. -/
theorem hasUrls_of_turn (henabled : conf.enabled = true)
    (hsel : (chosenRepo sub arch release conf).isSome = true)
    (hturn : getRepoUrl sub arch release json conf = .ok json') : conf.HasUrls := by
  unfold LrYumRepoConf.HasUrls
  unfold chosenRepo at hsel
  simp only [if_pos henabled] at hsel
  unfold getRepoUrl at hturn
  simp only [if_pos henabled] at hturn
  obtain ⟨v, hv, -⟩ := bind_eq_ok.1 hturn
  cases hbase : conf.baseurl with
  | none =>
    rw [hbase] at hsel
    cases hmeta : conf.metalink with
    | some u => exact Or.inl rfl
    | none =>
      cases hmirror : conf.mirrorlist with
      | some u => exact Or.inr rfl
      | none => simp [hmeta, hmirror] at hsel
  | some urls =>
    rintro rfl
    rw [hbase] at hsel
    unfold chooseBaseurl at hv
    rw [hbase] at hv
    obtain ⟨k, hk, -⟩ := bind_eq_ok.1 hv
    -- `k` is 1 from the other source, and the array ends at 0
    unfold chooseMetalink chooseMirrorlist at hk
    cases hmeta : conf.metalink <;> cases hmirror : conf.mirrorlist <;>
      simp [hmeta, hmirror, countUrls] at hsel hk

/-- As many as are chosen, when each that is enabled is. -/
theorem countP_eq_chosen {list : List LrYumRepoConf}
    (h : (list.filterMap (chosenRepo sub arch release)).length = list.countP LrYumRepoConf.enabled) :
    ∀ conf ∈ list, conf.enabled = true → (chosenRepo sub arch release conf).isSome = true := by
  have hle : ∀ l : List LrYumRepoConf,
      (l.filterMap (chosenRepo sub arch release)).length ≤ l.countP LrYumRepoConf.enabled := by
    intro l
    rw [List.length_filterMap_eq_countP]
    refine List.countP_mono_left fun conf _ hsome => ?_
    unfold chosenRepo at hsome
    by_contra hno
    simp [hno] at hsome
  induction list with
  | nil => simp
  | cons conf list ih =>
    have hrest := hle list
    intro c hc henabled
    cases hsel : chosenRepo sub arch release conf with
    | none =>
      rw [List.filterMap_cons_none hsel] at h
      cases hconf : conf.enabled with
      | true =>
        rw [List.countP_cons_of_pos hconf] at h
        omega
      | false =>
        rw [List.countP_cons_of_neg (by simp [hconf])] at h
        rcases List.mem_cons.1 hc with rfl | hc
        · simp [hconf] at henabled
        · exact ih h c hc henabled
    | some r =>
      have hconf : conf.enabled = true := by
        by_contra hno
        unfold chosenRepo at hsel
        simp [hno] at hsel
      rw [List.filterMap_cons_some hsel, List.countP_cons_of_pos hconf, List.length_cons] at h
      rcases List.mem_cons.1 hc with rfl | hc
      · rw [hsel]
        rfl
      · exact ih (by omega) c hc henabled

/-- Each turn of a run that returned has returned. -/
theorem turn_of_run {list : List LrYumRepoConf}
    (h : ssdsGetRepoUrls sub arch release list json = .ok json') :
    ∀ conf ∈ list, ∃ json₁ json₂, getRepoUrl sub arch release json₁ conf = .ok json₂ := by
  unfold ssdsGetRepoUrls at h
  induction list generalizing json with
  | nil => simp
  | cons c list ih =>
    rw [List.foldlM_cons] at h
    obtain ⟨json₁, hturn, hrest⟩ := bind_eq_ok.1 h
    intro conf hconf
    rcases List.mem_cons.1 hconf with rfl | hconf
    · exact ⟨json, json₁, hturn⟩
    · exact ih hrest conf hconf

/-- **The repositories of a request** are those that have urls exactly when each one that is enabled
has some of its own kind: an empty setting for base urls spoils the other two. -/
theorem repo_urls_iff {pkgs : List String} {repos : List SsdsRepoInfo}
    (h : Builds json pkgs repos) (list : List LrYumRepoConf) :
    NamesRepos sub arch release list json ↔ ∀ conf ∈ list, conf.enabled = true → conf.HasUrls := by
  constructor
  · rintro ⟨json', hrun, hnames⟩
    have hlen := congrArg List.length hnames
    rw [(h.listed.getRepoUrls hrun).messageRepos_length, List.length_append,
      h.listed.messageRepos_length, List.length_map] at hlen
    intro conf hconf henabled
    have hsel := countP_eq_chosen (Nat.add_left_cancel hlen).symm conf hconf henabled
    obtain ⟨json₁, json₂, hturn⟩ := turn_of_run hrun conf hconf
    exact hasUrls_of_turn henabled hsel hturn
  · intro hurls
    have hvalid : ∀ r, .addRepo r ∈ (list.filterMap (chosenRepo sub arch release)).map
        CrCall.addRepo → r.Valid := by
      intro r hr
      obtain ⟨r', hr', heq⟩ := List.mem_map.1 hr
      cases heq
      exact (chosenRepo_valid hurls hr').1
    obtain ⟨json', hrun, hbuilds⟩ := crRun_builds _ h hvalid
    refine ⟨json', (ssdsGetRepoUrls_eq hurls json).trans hrun, ?_⟩
    rw [hbuilds.messageRepos, h.messageRepos, List.map_append]
    have hadded : addedRepos ((list.filterMap (chosenRepo sub arch release)).map CrCall.addRepo) =
        list.filterMap (chosenRepo sub arch release) := by
      unfold addedRepos
      rw [List.filterMap_map]
      exact List.filterMap_some
    rw [hadded]
    congr 1
    refine List.map_congr_left fun r hr => ?_
    rw [(chosenRepo_valid hurls hr).2]

/-- Urls without variables. -/
def plainUrls (url : String) (_ : LrUrlVars) : String := url

/-- Base urls beside a mirrorlist, a repository that is not enabled, and a metalink. -/
def mixedConfs : List LrYumRepoConf :=
  [⟨true, "fedora", some "http://m/", none, some ["http://a/", "http://b/"]⟩,
    ⟨false, "debug", none, none, none⟩, ⟨true, "updates", none, some "http://l/", none⟩]

theorem repo_urls_iff_mixed :
    Builds (ssdsJsCrInit .getInstall) [] [] ∧
      (NamesRepos plainUrls "x86_64" "21" mixedConfs (ssdsJsCrInit .getInstall) ↔
        ∀ conf ∈ mixedConfs, conf.enabled = true → conf.HasUrls) ∧
      ∀ conf ∈ mixedConfs, conf.enabled = true → conf.HasUrls := by
  refine ⟨Builds.init _, repo_urls_iff (Builds.init _) mixedConfs, ?_⟩
  intro conf hconf henabled
  simp only [mixedConfs, List.mem_cons, List.not_mem_nil, or_false] at hconf
  rcases hconf with rfl | rfl | rfl
  · exact List.cons_ne_nil _ _
  · cases henabled
  · exact Or.inl rfl

/-- **A repository without a url is named**, with a null url and the type 0. -/
theorem repo_urls_fails :
    (∃ json', ssdsGetRepoUrls plainUrls "x86_64" "21" [⟨true, "updates", none, none, none⟩]
        (ssdsJsCrInit .getInstall) = .ok json' ∧
      messageRepos json' = [.obj [("repo_url", .arr [.null]), ("name", .str "updates"),
        ("type", .int 0)]]) ∧
    ¬ NamesRepos plainUrls "x86_64" "21" [⟨true, "updates", none, none, none⟩]
      (ssdsJsCrInit .getInstall) := by
  refine ⟨⟨_, rfl, rfl⟩, ?_⟩
  rintro ⟨json', hrun, hnames⟩
  cases hrun
  have hlen := congrArg List.length hnames
  cases hlen

end Rds
