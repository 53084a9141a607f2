import Rds.Proof.Builder
import Rds.Proof.Decode
import Rds.Proof.Session

/-!
# A request under construction

The calls that fill a request move the cursors of the builder, and put containers wherever the
heap ends. What they build is the root object, the data object, an array for each of the two
lists and two containers for each repository (`Request`).

* `Request.setScalar`, `Request.newList`, `Request.addElement`, `Request.addContainers`: what
  each store into the heap makes of it.
* `crRun_builds`: any sequence of calls builds the packages and repositories it adds.
* `Request.toString`: the document printed from it.
* `request_round_trip`: **the server reads back what the client added**.
-/

namespace Rds

open SsdsJsonCreate

/-- The two lists of a request. -/
inductive ReqList
  | pkgs | repos
  deriving DecidableEq, Repr

def ReqList.name : ReqList → String
  | pkgs => "req_pkgs"
  | repos => "repolist"

theorem ReqList.name_inj {l l' : ReqList} (h : l.name = l'.name) : l = l' := by
  cases l <;> cases l' <;> first | rfl | exact absurd h (by decide)

/-- A repository as it is kept: all urls for type 1, the first one otherwise. -/
def SsdsRepoInfo.kept (r : SsdsRepoInfo) : SsdsRepoInfo :=
  { r with urls := if r.type = 1 then r.urls else r.urls.take 1 }

/-- A repository that can be added: its type is an `int`, and there is a first url where only
that is kept. -/
structure SsdsRepoInfo.Valid (r : SsdsRepoInfo) : Prop where
  url : r.type ≠ 1 → r.urls ≠ []
  low : -2 ^ 31 ≤ r.type
  high : r.type < 2 ^ 31

theorem urlItems_eq {r : SsdsRepoInfo} (h : r.Valid) :
    urlItems r.urls r.type = r.kept.urls.map .str := by
  unfold urlItems SsdsRepoInfo.kept
  by_cases ht : r.type = 1
  · simp [ht]
  · obtain ⟨u, us, hu⟩ := List.exists_cons_of_ne_nil (h.url ht)
    simp [ht, hu, Item.ofString]

/-- A repository in the heap: the addresses of its object and its urls. -/
structure PlacedRepo where
  obj : ℕ
  urls : ℕ
  repo : SsdsRepoInfo

variable {heap heap' : List Container} {ms : List (String × Item)} {addr : ReqList → Option ℕ}
  {elems : ReqList → List Item} {body : List PlacedRepo}

/-- The containers of a repository. -/
structure PlacedRepo.In (p : PlacedRepo) (heap : List Container) : Prop where
  obj : heap[p.obj]? = some
    (.obj [("repo_url", .ref p.urls), ("name", .str p.repo.name), ("type", .int p.repo.type)])
  urls : heap[p.urls]? = some (.arr (p.repo.kept.urls.map .str))

/-- **The heap of a request**: the members of the data object, the addresses of the lists that
are there, what the lists hold, and the repositories. -/
structure Request (heap : List Container) (ms : List (String × Item)) (addr : ReqList → Option ℕ)
    (elems : ReqList → List Item) (body : List PlacedRepo) : Prop where
  root : ∃ c, heap[0]? = some (.obj [("code", .int c), ("data", .ref 1)])
  data : heap[1]? = some (.obj ms)
  lookup : ∀ l : ReqList, ms.lookup l.name = (addr l).map .ref
  named : ∀ m ∈ ms, ∀ l : ReqList, m.1 = l.name → some m.2 = (addr l).map .ref
  scalar : ∀ m ∈ ms, (∀ l : ReqList, m.1 ≠ l.name) → ∀ a, m.2 ≠ .ref a
  list : ∀ l a, addr l = some a → heap[a]? = some (.arr (elems l))
  empty : ∀ l, addr l = none → elems l = []
  apart : ∀ l l' a, addr l = some a → addr l' = some a → l = l'
  repos : ∀ p ∈ body, p.In heap
  low : ∀ p ∈ body, 1 < p.obj
  urlsApart : ∀ p ∈ body, ∀ l, addr l ≠ some p.urls
  deep : body ≠ [] → 5 ≤ heap.length

/-! ## Stores -/

/-- The second heap holds what the first does but at one address. -/
def SameBut (i : ℕ) (heap heap' : List Container) : Prop :=
  ∀ j c, j ≠ i → heap[j]? = some c → heap'[j]? = some c

theorem sameBut_set (heap : List Container) (i : ℕ) (c : Container) (post : List Container) :
    SameBut i heap (heap.set i c ++ post) := by
  intro j c' hj hc
  have hlt : j < heap.length := (List.getElem?_eq_some_iff.1 hc).1
  rw [List.getElem?_append_left (by simpa using hlt), List.getElem?_set_ne (Ne.symm hj)]
  exact hc

theorem PlacedRepo.In.sameBut {i : ℕ} {p : PlacedRepo} (h : p.In heap)
    (hsame : SameBut i heap heap') (hobj : p.obj ≠ i) (hurls : p.urls ≠ i) : p.In heap' :=
  ⟨hsame _ _ hobj h.obj, hsame _ _ hurls h.urls⟩

/-- The root and the data object are no arrays. -/
theorem Request.obj_apart (h : Request heap ms addr elems body) {i : ℕ}
    {ms' : List (String × Item)} (hi : heap[i]? = some (.obj ms')) :
    (∀ l, addr l ≠ some i) ∧ ∀ p ∈ body, p.urls ≠ i := by
  refine ⟨fun l hl => ?_, fun p hp hpi => ?_⟩
  · have hlist := h.list l i hl
    rw [hi] at hlist
    cases hlist
  · have hurls := (h.repos p hp).urls
    rw [hpi, hi] at hurls
    cases hurls

/-- **A store into the root or the data object** leaves the lists and the repositories. -/
theorem Request.obj_frame (h : Request heap ms addr elems body) {i : ℕ}
    {ms' : List (String × Item)} (hi : heap[i]? = some (.obj ms')) (hle : i ≤ 1)
    (hsame : SameBut i heap heap') :
    (∀ l a, addr l = some a → heap'[a]? = some (.arr (elems l))) ∧ ∀ p ∈ body, p.In heap' := by
  obtain ⟨hlists, hurls⟩ := h.obj_apart hi
  constructor
  · intro l a ha
    refine hsame a _ ?_ (h.list l a ha)
    rintro rfl
    exact hlists l ha
  · intro p hp
    have hlow := h.low p hp
    exact (h.repos p hp).sameBut hsame (by omega) (hurls p hp)

/-- The lists are no objects. -/
theorem Request.list_apart (h : Request heap ms addr elems body) {l : ReqList} {a : ℕ}
    (ha : addr l = some a) : a ≠ 0 ∧ a ≠ 1 ∧ ∀ p ∈ body, p.obj ≠ a := by
  obtain ⟨c, hroot⟩ := h.root
  have hlist := h.list l a ha
  refine ⟨?_, ?_, fun p hp hpa => ?_⟩
  · rintro rfl
    exact (h.obj_apart hroot).1 l ha
  · rintro rfl
    exact (h.obj_apart h.data).1 l ha
  · have hobj := (h.repos p hp).obj
    rw [hpa, hlist] at hobj
    cases hobj

/-- **The code is set.** -/
theorem Request.setCode (h : Request heap ms addr elems body) (c : ℤ) :
    Request (setMemberAt heap (some 0) "code" (.int c)) ms addr elems body := by
  obtain ⟨c', hroot⟩ := h.root
  have hlt : 0 < heap.length := (List.getElem?_eq_some_iff.1 hroot).1
  rw [setMemberAt_eq hroot]
  have hsame : SameBut 0 heap (heap.set 0 (.obj (Json.setMember
      [("code", .int c'), ("data", .ref 1)] "code" (.int c)))) := by
    simpa using sameBut_set heap 0 _ []
  obtain ⟨hlist, hrepos⟩ := h.obj_frame hroot (by decide) hsame
  exact { h with
    root := ⟨c, by simp [hlt, Json.setMember]⟩
    data := hsame 1 _ (by decide) h.data
    list := hlist
    repos := hrepos
    deep := fun hb => by rw [List.length_set]; exact h.deep hb }

/-- **A scalar member of the data object is set.** -/
theorem Request.setScalar (h : Request heap ms addr elems body) {name : String} {v : Item}
    (hname : ∀ l : ReqList, name ≠ l.name) (hv : ∀ a, v ≠ .ref a) :
    Request (setMemberAt heap (some 1) name v) (Json.setMember ms name v) addr elems body := by
  obtain ⟨c, hroot⟩ := h.root
  have hlt : 1 < heap.length := (List.getElem?_eq_some_iff.1 h.data).1
  rw [setMemberAt_eq h.data]
  have hsame : SameBut 1 heap (heap.set 1 (.obj (Json.setMember ms name v))) := by
    simpa using sameBut_set heap 1 _ []
  obtain ⟨hlist, hrepos⟩ := h.obj_frame h.data le_rfl hsame
  exact { h with
    root := ⟨c, hsame 0 _ (by decide) hroot⟩
    data := by simp [hlt]
    lookup := fun l => by rw [Json.lookup_setMember, if_neg (Ne.symm (hname l)), h.lookup]
    named := fun m hm l hl => by
      rcases Json.mem_setMember hm with rfl | hm
      · exact absurd hl (hname l)
      · exact h.named m hm l hl
    scalar := fun m hm hl => by
      rcases Json.mem_setMember hm with rfl | hm
      · exact hv
      · exact h.scalar m hm hl
    list := hlist
    repos := hrepos
    deep := fun hb => by rw [List.length_set]; exact h.deep hb }

/-- **A list is made** for a name that is not there yet. -/
theorem Request.newList (h : Request heap ms addr elems body) {l : ReqList} (hl : addr l = none) :
    Request (setMemberAt heap (some 1) l.name (.ref heap.length) ++ [.arr []])
      (Json.setMember ms l.name (.ref heap.length)) (Function.update addr l (some heap.length))
      elems body := by
  obtain ⟨c, hroot⟩ := h.root
  have hlt : 1 < heap.length := (List.getElem?_eq_some_iff.1 h.data).1
  rw [setMemberAt_eq h.data]
  have hsame := sameBut_set heap 1 (.obj (Json.setMember ms l.name (.ref heap.length))) [.arr []]
  obtain ⟨hlist, hrepos⟩ := h.obj_frame h.data le_rfl hsame
  have hfresh : ∀ (i : ℕ) (c : Container), heap[i]? = some c → i ≠ heap.length := fun i c hi =>
    Nat.ne_of_lt (List.getElem?_eq_some_iff.1 hi).1
  have hother : ∀ {l'}, l' ≠ l → Function.update addr l (some heap.length) l' = addr l' :=
    fun hne => Function.update_of_ne hne _ _
  have hself : Function.update addr l (some heap.length) l = some heap.length :=
    Function.update_self _ _ _
  exact {
    root := ⟨c, hsame 0 _ (by decide) hroot⟩
    data := by
      rw [List.getElem?_append_left (by simpa using hlt)]
      simp [hlt]
    lookup := fun l' => by
      rw [Json.lookup_setMember]
      by_cases hll : l' = l
      · rw [if_pos (by rw [hll]), hll, hself]
        rfl
      · rw [if_neg fun hn => hll (ReqList.name_inj hn), hother hll, h.lookup]
    named := fun m hm l' hml => by
      rcases Json.mem_setMember hm with rfl | hold
      · obtain rfl := ReqList.name_inj hml
        rw [hself]
        rfl
      · have hnamed := h.named m hold l' hml
        have hne : l' ≠ l := by
          rintro rfl
          rw [hl] at hnamed
          cases hnamed
        rw [hother hne]
        exact hnamed
    scalar := fun m hm hnone => by
      rcases Json.mem_setMember hm with rfl | hm
      · exact absurd rfl (hnone l)
      · exact h.scalar m hm hnone
    list := fun l' a ha => by
      by_cases hll : l' = l
      · rw [hll, hself] at ha
        cases ha
        rw [hll, h.empty l hl, List.getElem?_append_right (by simp)]
        simp
      · rw [hother hll] at ha
        exact hlist l' a ha
    empty := fun l' ha => by
      by_cases hll : l' = l
      · rw [hll]
        exact h.empty l hl
      · rw [hother hll] at ha
        exact h.empty l' ha
    apart := fun l₁ l₂ a h₁ h₂ => by
      by_cases hl₁ : l₁ = l <;> by_cases hl₂ : l₂ = l
      · rw [hl₁, hl₂]
      · rw [hl₁, hself] at h₁
        rw [hother hl₂] at h₂
        cases h₁
        exact absurd rfl (hfresh _ _ (h.list l₂ _ h₂))
      · rw [hl₂, hself] at h₂
        rw [hother hl₁] at h₁
        cases h₂
        exact absurd rfl (hfresh _ _ (h.list l₁ _ h₁))
      · rw [hother hl₁] at h₁
        rw [hother hl₂] at h₂
        exact h.apart l₁ l₂ a h₁ h₂
    repos := hrepos
    low := h.low
    urlsApart := fun p hp l' hu => by
      by_cases hll : l' = l
      · rw [hll, hself] at hu
        exact hfresh _ _ (h.repos p hp).urls (Option.some.inj hu).symm
      · rw [hother hll] at hu
        exact h.urlsApart p hp l' hu
    deep := fun hb => by
      have := h.deep hb
      simp only [List.length_append, List.length_set]
      omega }

/-- **An element is added** to a list, and containers put behind. -/
theorem Request.addElement (h : Request heap ms addr elems body) {l : ReqList} {a : ℕ}
    (ha : addr l = some a) (v : Item) (post : List Container) :
    Request (addElementAt heap (some a) v ++ post) ms addr
      (Function.update elems l (elems l ++ [v])) body := by
  obtain ⟨c, hroot⟩ := h.root
  obtain ⟨ha0, ha1, hobj⟩ := h.list_apart ha
  have hlt : a < heap.length := (List.getElem?_eq_some_iff.1 (h.list l a ha)).1
  rw [addElementAt_eq (h.list l a ha)]
  have hsame := sameBut_set heap a (.arr (elems l ++ [v])) post
  exact { h with
    root := ⟨c, hsame 0 _ (Ne.symm ha0) hroot⟩
    data := hsame 1 _ (Ne.symm ha1) h.data
    list := fun l' b hb => by
      by_cases hll : l' = l
      · rw [hll, ha] at hb
        cases hb
        rw [hll, Function.update_self, List.getElem?_append_left (by simpa using hlt)]
        simp [hlt]
      · rw [Function.update_of_ne hll]
        refine hsame b _ ?_ (h.list l' b hb)
        rintro rfl
        exact hll (h.apart l' l b hb ha)
    empty := fun l' hnone => by
      have hll : l' ≠ l := by
        rintro rfl
        rw [ha] at hnone
        cases hnone
      rw [Function.update_of_ne hll]
      exact h.empty l' hnone
    repos := fun p hp => (h.repos p hp).sameBut hsame (hobj p hp) fun hpa =>
      h.urlsApart p hp l (by rw [hpa, ha])
    deep := fun hb => by
      have := h.deep hb
      simp only [List.length_append, List.length_set]
      omega }

/-- **A repository is there** once its containers are. -/
theorem Request.addContainers (h : Request heap ms addr elems body) {p : PlacedRepo}
    (hp : p.In heap) (hlow : 1 < p.obj) (hurls : ∀ l, addr l ≠ some p.urls)
    (hdeep : 5 ≤ heap.length) : Request heap ms addr elems (body ++ [p]) := by
  have hmem : ∀ q ∈ body ++ [p], q ∈ body ∨ q = p := fun q hq => by simpa using hq
  exact { h with
    repos := fun q hq => by
      rcases hmem q hq with hq | rfl
      · exact h.repos q hq
      · exact hp
    low := fun q hq => by
      rcases hmem q hq with hq | rfl
      · exact h.low q hq
      · exact hlow
    urlsApart := fun q hq => by
      rcases hmem q hq with hq | rfl
      · exact h.urlsApart q hq
      · exact hurls
    deep := fun _ => hdeep }

/-! ## Calls -/

/-- What the lists hold. -/
def reqElems (pkgs : List String) (body : List PlacedRepo) : ReqList → List Item
  | .pkgs => pkgs.map .str
  | .repos => body.map fun p => .ref p.obj

/-- **The builder holds a request** for these packages with these repositories. -/
structure Builds (json : SsdsJsonCreate) (pkgs : List String) (repos : List SsdsRepoInfo) :
    Prop where
  rootObj : json.rootObj = 0
  dataObj : json.dataObj = 1
  request : ∃ ms addr body, Request json.heap ms addr (reqElems pkgs body) body ∧
    body.map PlacedRepo.repo = repos

variable {json : SsdsJsonCreate} {pkgs : List String} {repos : List SsdsRepoInfo}

theorem Builds.init (c : Code) : Builds (ssdsJsCrInit c) [] [] := by
  refine ⟨rfl, rfl, [], fun _ => none, [], ?_, rfl⟩
  exact {
    root := ⟨_, rfl⟩
    data := rfl
    lookup := fun _ => rfl
    named := by simp
    scalar := by simp
    list := by simp
    empty := fun l _ => by cases l <;> rfl
    apart := by simp
    repos := by simp
    low := by simp
    urlsApart := by simp
    deep := by simp }

theorem Request.dataMember (h : Request json.heap ms addr elems body) (hdata : json.dataObj = 1)
    (l : ReqList) : json.dataMember l.name = (addr l).map .ref := by
  unfold SsdsJsonCreate.dataMember
  rw [hdata, h.data]
  exact h.lookup l

/-- **The list becomes current**, wherever the cursors were. -/
theorem Request.useArray (h : Request json.heap ms addr elems body) (hdata : json.dataObj = 1)
    (l : ReqList) : ∃ ms' addr' a, addr' l = some a ∧
      (useArray json l.name).currArray = .good a ∧ (Rds.useArray json l.name).dataObj = 1 ∧
      (Rds.useArray json l.name).rootObj = json.rootObj ∧
      Request (Rds.useArray json l.name).heap ms' addr' elems body := by
  unfold Rds.useArray
  have hmember := h.dataMember hdata l
  cases hl : addr l with
  | none =>
    rw [hmember, hl]
    refine ⟨Json.setMember ms l.name (.ref json.heap.length),
      Function.update addr l (some json.heap.length), json.heap.length,
      Function.update_self _ _ _, rfl, hdata, rfl, ?_⟩
    simp only [Option.map_none, Option.isNone_none, if_true, place, hdata]
    exact h.newList hl
  | some a =>
    have harray : json.dataArray l.name = some a := by
      unfold SsdsJsonCreate.dataArray
      rw [hmember, hl]
      simp only [Option.map_some, h.list l a hl]
    rw [hmember, hl, harray]
    exact ⟨ms, addr, a, hl, rfl, hdata, rfl, h⟩

theorem Builds.addPackage (h : Builds json pkgs repos) (package : String) :
    ∃ json', ssdsJsCrAddPackage json package = .ok json' ∧
      Builds json' (pkgs ++ [package]) repos := by
  obtain ⟨ms, addr, body, hreq, hrepos⟩ := h.request
  obtain ⟨ms', addr', a, ha, hcurr, hdata, hroot, hreq'⟩ := hreq.useArray h.dataObj .pkgs
  have helems : Function.update (reqElems pkgs body) .pkgs
      (reqElems pkgs body .pkgs ++ [.str package]) = reqElems (pkgs ++ [package]) body := by
    funext l
    cases l <;> simp [reqElems, Function.update]
  have hadd := hreq'.addElement ha (.str package) []
  rw [List.append_nil, helems] at hadd
  have hname : ReqList.pkgs.name = "req_pkgs" := rfl
  rw [hname] at hcurr hdata hroot hadd
  refine ⟨_, bind_eq_ok.2 ⟨some a, by rw [hcurr]; rfl, rfl⟩, hroot.trans h.rootObj, hdata, ms',
    addr', body, hadd, hrepos⟩

theorem Builds.addRepo (h : Builds json pkgs repos) {repo : SsdsRepoInfo} (hrepo : repo.Valid) :
    ∃ json', ssdsJsCrAddRepo json repo.urls (some repo.name) repo.type = .ok json' ∧
      Builds json' pkgs (repos ++ [repo]) := by
  obtain ⟨ms, addr, body, hreq, hrepos⟩ := h.request
  obtain ⟨ms', addr', a, ha, hcurr, hdata, hroot, hreq'⟩ := hreq.useArray h.dataObj .repos
  have hname : ReqList.repos.name = "repolist" := rfl
  rw [hname] at hcurr hdata hroot hreq'
  generalize hjson : useArray json "repolist" = json₁ at hcurr hdata hroot hreq'
  let placed : PlacedRepo := ⟨json₁.heap.length, json₁.heap.length + 1, repo⟩
  let post : List Container :=
    [.obj [("repo_url", .ref placed.urls), ("name", .str repo.name), ("type", .int repo.type)],
      .arr (repo.kept.urls.map .str)]
  have helems : Function.update (reqElems pkgs body) .repos
      (reqElems pkgs body .repos ++ [.ref placed.obj]) = reqElems pkgs (body ++ [placed]) := by
    funext l
    cases l <;> simp [reqElems, Function.update]
  have hadd := hreq'.addElement ha (.ref placed.obj) post
  rw [helems] at hadd
  have hlen : (addElementAt json₁.heap (some a) (.ref placed.obj)).length = json₁.heap.length :=
    addElementAt_length _ _ _
  have hlong : 3 ≤ json₁.heap.length := by
    obtain ⟨h0, h1, -⟩ := hreq'.list_apart ha
    have hlt : a < json₁.heap.length := (List.getElem?_eq_some_iff.1 (hreq'.list _ a ha)).1
    omega
  have hin : placed.In (addElementAt json₁.heap (some a) (.ref placed.obj) ++ post) := by
    constructor
    · rw [List.getElem?_append_right (by rw [hlen]), hlen]
      simp [post, placed]
    · rw [List.getElem?_append_right (by rw [hlen]; simp [placed]), hlen]
      simp [post, placed]
  have hplaced := hadd.addContainers hin (by simp [placed]; omega)
    (fun l hl => by
      have hlt := (List.getElem?_eq_some_iff.1 (hreq'.list l _ hl)).1
      simp [placed] at hlt)
    (by rw [List.length_append, hlen]; simp [post]; omega)
  refine ⟨{ json₁ with
      heap := addElementAt json₁.heap (some a) (.ref placed.obj) ++ post
      nodes := json₁.nodes ++ [⟨placed.urls, none⟩], currNode := json₁.nodes.length
      currObj := .good placed.obj, currArray := .good placed.urls },
    ?_, hroot.trans h.rootObj, hdata, ms', addr', body ++ [placed], hplaced, ?_⟩
  · unfold ssdsJsCrAddRepo
    rw [hjson, urlItems_eq hrepo]
    exact bind_eq_ok.2 ⟨some a, by rw [hcurr]; rfl, rfl⟩
  · simp [hrepos, placed]

/-- The calls that fill a request. -/
inductive CrCall
  | insertCode (code : Code)
  | setMessage (msg : String)
  | setReadBytes (bytesRead : ℤ)
  | addPackage (package : String)
  | addRepo (repo : SsdsRepoInfo)

namespace CrCall

/-- One call. `url_count` is the number of urls. -/
def run (json : SsdsJsonCreate) : CrCall → Except Halt SsdsJsonCreate
  | insertCode code => .ok (ssdsJsCrInsertCode json code)
  | setMessage msg => .ok (ssdsJsCrSetMessage json msg)
  | setReadBytes bytesRead => .ok (ssdsJsCrSetReadBytes json bytesRead)
  | addPackage package => ssdsJsCrAddPackage json package
  | addRepo repo => ssdsJsCrAddRepo json repo.urls (some repo.name) repo.type

def package? : CrCall → Option String
  | addPackage package => some package
  | _ => none

def repo? : CrCall → Option SsdsRepoInfo
  | addRepo repo => some repo
  | _ => none

end CrCall

/-- The packages that are added, in order. -/
def addedPackages (calls : List CrCall) : List String := calls.filterMap CrCall.package?

/-- The repositories that are added, in order. -/
def addedRepos (calls : List CrCall) : List SsdsRepoInfo := calls.filterMap CrCall.repo?

/-- **One call** adds what it is for. -/
theorem Builds.run (h : Builds json pkgs repos) (call : CrCall)
    (hvalid : ∀ repo, call = .addRepo repo → repo.Valid) :
    ∃ json', call.run json = .ok json' ∧
      Builds json' (pkgs ++ call.package?.toList) (repos ++ call.repo?.toList) := by
  obtain ⟨ms, addr, body, hreq, hrepos⟩ := h.request
  cases call with
  | insertCode code =>
    refine ⟨_, rfl, h.rootObj, h.dataObj, ms, addr, body, ?_, by simpa [CrCall.repo?] using hrepos⟩
    simp only [ssdsJsCrInsertCode, h.rootObj, CrCall.package?, Option.toList_none, List.append_nil]
    exact hreq.setCode code.num
  | setMessage msg =>
    refine ⟨_, rfl, h.rootObj, h.dataObj, Json.setMember ms "message" (.str msg), addr, body, ?_,
      by simpa [CrCall.repo?] using hrepos⟩
    simp only [ssdsJsCrSetMessage, h.dataObj, CrCall.package?, Option.toList_none, List.append_nil]
    exact hreq.setScalar (by intro l; cases l <;> decide) (by simp)
  | setReadBytes bytesRead =>
    refine ⟨_, rfl, h.rootObj, h.dataObj, Json.setMember ms "read" (.int bytesRead), addr, body, ?_,
      by simpa [CrCall.repo?] using hrepos⟩
    simp only [ssdsJsCrSetReadBytes, h.dataObj, CrCall.package?, Option.toList_none,
      List.append_nil]
    exact hreq.setScalar (by intro l; cases l <;> decide) (by simp)
  | addPackage package =>
    obtain ⟨json', hrun, hbuilds⟩ := h.addPackage package
    exact ⟨json', hrun, by simpa [CrCall.package?, CrCall.repo?] using hbuilds⟩
  | addRepo repo =>
    obtain ⟨json', hrun, hbuilds⟩ := h.addRepo (hvalid repo rfl)
    exact ⟨json', hrun, by simpa [CrCall.package?, CrCall.repo?] using hbuilds⟩

/-- **Any sequence of calls** builds what it adds. -/
theorem crRun_builds (calls : List CrCall) :
    ∀ {json : SsdsJsonCreate} {pkgs : List String} {repos : List SsdsRepoInfo},
      Builds json pkgs repos → (∀ repo, .addRepo repo ∈ calls → repo.Valid) →
      ∃ json', calls.foldlM CrCall.run json = .ok json' ∧
        Builds json' (pkgs ++ addedPackages calls) (repos ++ addedRepos calls) := by
  induction calls with
  | nil =>
    intro json pkgs repos h _
    exact ⟨json, rfl, by simpa [addedPackages, addedRepos] using h⟩
  | cons call calls ih =>
    intro json pkgs repos h hvalid
    obtain ⟨json₁, hrun, h₁⟩ := h.run call fun repo hc => hvalid repo (by simp [hc])
    obtain ⟨json', hrest, h'⟩ := ih h₁ fun repo hc => hvalid repo (List.mem_cons_of_mem _ hc)
    refine ⟨json', ?_, ?_⟩
    · rw [List.foldlM_cons]
      exact bind_eq_ok.2 ⟨json₁, hrun, hrest⟩
    · have hpkgs : addedPackages (call :: calls) =
          call.package?.toList ++ addedPackages calls := by
        unfold addedPackages
        cases call <;> rfl
      have hreps : addedRepos (call :: calls) = call.repo?.toList ++ addedRepos calls := by
        unfold addedRepos
        cases call <;> rfl
      rw [hpkgs, hreps, ← List.append_assoc, ← List.append_assoc]
      exact h'

/-! ## The document -/

/-- The object of a repository in a document. -/
def repoJson (r : SsdsRepoInfo) : Json :=
  .obj [("repo_url", .arr (r.urls.map .str)), ("name", .str r.name), ("type", .int r.type)]

/-- What the lists of a document hold. -/
def listDoc (pkgs : List String) (repos : List SsdsRepoInfo) : ReqList → List Json
  | .pkgs => pkgs.map .str
  | .repos => repos.map fun r => repoJson r.kept

theorem render_strs {a : ℕ} {names : List String} (h : heap[a]? = some (.arr (names.map .str)))
    (d : ℕ) : render heap (d + 1) (.ref a) = .arr (names.map .str) := by
  rw [render, h]
  simp [render, Function.comp_def]

theorem PlacedRepo.In.render {p : PlacedRepo} (h : p.In heap) (d : ℕ) :
    render heap (d + 2) (.ref p.obj) = repoJson p.repo.kept := by
  have hurls := render_strs h.urls d
  rw [Rds.render, h.obj]
  simp only [List.map_cons, List.map_nil, hurls]
  rfl

theorem render_scalar {v : Item} (hv : ∀ a, v ≠ .ref a) (d : ℕ) : (render heap d v).Scalar := by
  cases v with
  | ref a => exact absurd rfl (hv a)
  | _ => simp [render, Json.Scalar]

/-- Below a repository there are no packages. -/
theorem descend_repoJson (r : SsdsRepoInfo) : Json.descend "req_pkgs" (repoJson r) = [] := by
  have hurls : Json.descend "req_pkgs" (.arr (r.urls.map .str)) = [] := by
    rw [Json.descend]
    apply Json.descendElems_eq_nil
    intro e he
    obtain ⟨u, -, rfl⟩ := List.mem_map.1 he
    exact Json.descend_scalar trivial
  simp [repoJson, Json.descend, Json.descendMembers, Json.descendMember] at hurls ⊢
  exact hurls

/-- **A list is printed** with all it holds. -/
theorem Request.renderList (h : Request heap ms addr (reqElems pkgs body) body) {l : ReqList}
    {a : ℕ} (ha : addr l = some a) :
    render heap (heap.length - 2) (.ref a) = .arr (listDoc pkgs (body.map PlacedRepo.repo) l) := by
  have hlist := h.list l a ha
  obtain ⟨h0, h1, -⟩ := h.list_apart ha
  have hlt : a < heap.length := (List.getElem?_eq_some_iff.1 hlist).1
  obtain ⟨d, hd⟩ : ∃ d, heap.length = d + 3 := ⟨heap.length - 3, by omega⟩
  rw [hd, show d + 3 - 2 = d + 1 by omega]
  cases l with
  | pkgs => exact render_strs hlist d
  | repos =>
    rw [render, hlist]
    simp only [reqElems, listDoc, List.map_map]
    congr 1
    refine List.map_congr_left fun p hp => ?_
    -- a repository takes two more steps down
    have hdeep := h.deep (List.ne_nil_of_mem hp)
    obtain ⟨d', rfl⟩ : ∃ d', d = d' + 2 := ⟨d - 2, by omega⟩
    exact (h.repos p hp).render d'

/-- **The lists a reader finds** in a document. -/
def HasLists (doc : Json) (pkgs : List String) (repos : List SsdsRepoInfo) : Prop :=
  ∃ root data, doc = .obj root ∧ jsonObjectGetMember (some root) "data" = some (.obj data) ∧
    Strings (jsonObjectGetArrayMember (some data) "req_pkgs") pkgs ∧
    foundLength root = pkgs.length ∧
    (jsonObjectGetArrayMember (some data) "repolist").getD [] = repos.map fun r => repoJson r.kept

/-- What the path finds first is the list of the data object: the other members hold no packages
below them. -/
theorem Request.descend_data (h : Request heap ms addr (reqElems pkgs body) body) :
    (Json.descend "req_pkgs"
      (.obj (ms.map fun m => (m.1, render heap (heap.length - 2) m.2)))).head? =
        (ms.map fun m => (m.1, render heap (heap.length - 2) m.2)).lookup "req_pkgs" := by
  rw [Json.descend]
  apply Json.head?_descendMembers
  intro m hm hname
  obtain ⟨⟨name, v⟩, hmem, rfl⟩ := List.mem_map.1 hm
  by_cases hrepos : name = ReqList.repos.name
  · have hnamed := h.named _ hmem .repos hrepos
    cases ha : addr .repos with
    | none =>
      rw [ha] at hnamed
      cases hnamed
    | some a =>
      rw [ha] at hnamed
      obtain rfl : v = .ref a := Option.some.inj hnamed
      simp only [h.renderList ha, listDoc, Json.descend]
      apply Json.descendElems_eq_nil
      intro e he
      obtain ⟨r, -, rfl⟩ := List.mem_map.1 he
      exact descend_repoJson _
  · have hscalar := h.scalar _ hmem fun l => by
      cases l with
      | pkgs => exact hname
      | repos => exact hrepos
    exact Json.descend_scalar (render_scalar hscalar _)

/-- **What is printed has the lists.** -/
theorem Builds.hasLists (h : Builds json pkgs repos) :
    HasLists (ssdsJsCrToString json) pkgs repos := by
  obtain ⟨ms, addr, body, hreq, rfl⟩ := h.request
  obtain ⟨c, hroot⟩ := hreq.root
  have hlt : 1 < json.heap.length := (List.getElem?_eq_some_iff.1 hreq.data).1
  set data : JsonObject := ms.map fun m => (m.1, render json.heap (json.heap.length - 2) m.2)
    with hdata
  have hdoc : ssdsJsCrToString json = .obj [("code", .int c), ("data", .obj data)] := by
    obtain ⟨d, hd⟩ : ∃ d, json.heap.length = d + 2 := ⟨json.heap.length - 2, by omega⟩
    rw [hdata, hd, Nat.add_sub_cancel]
    unfold ssdsJsCrToString
    rw [h.rootObj, hd, render, hroot]
    simp only [List.map_cons, List.map_nil, render, hreq.data]
  have hlookup : ∀ l : ReqList, data.lookup l.name =
      (addr l).map fun _ => .arr (listDoc pkgs (body.map PlacedRepo.repo) l) := by
    intro l
    rw [hdata, Json.lookup_map, hreq.lookup]
    cases hl : addr l with
    | none => rfl
    | some a => exact congrArg some (hreq.renderList hl)
  have harray : ∀ l : ReqList, (jsonObjectGetArrayMember (some data) l.name).getD [] =
      listDoc pkgs (body.map PlacedRepo.repo) l := by
    intro l
    have hempty := hreq.empty l
    unfold jsonObjectGetArrayMember jsonObjectGetMember
    rw [Option.bind_some, hlookup l]
    cases hl : addr l with
    | some a => rfl
    | none =>
      have hnone := hempty hl
      cases l with
      | pkgs => simp_all [reqElems, listDoc, jsonNodeGetArray]
      | repos => simp_all [reqElems, listDoc, jsonNodeGetArray]
  refine ⟨_, data, hdoc, rfl, harray .pkgs, ?_, harray .repos⟩
  have hfirst : (Json.descend "req_pkgs" (.obj data))[0]? = data.lookup "req_pkgs" := by
    rw [← List.head?_eq_getElem?]
    exact hreq.descend_data
  have hpkgs := congrArg List.length (harray .pkgs)
  rw [listDoc, List.length_map] at hpkgs
  rw [← hpkgs]
  have hmatch : jsonPathMatchData "req_pkgs"
      (some (.obj [("code", .int c), ("data", .obj data)])) =
        some (Json.descend "req_pkgs" (.obj data)) := rfl
  unfold foundLength jsonArrayGetArrayElement jsonArrayGetElement
  rw [hmatch, Option.bind_some, hfirst]
  rfl

/-! ## The round trip -/

/-- **What the server's getters read** of the packages and the repositories. -/
structure ReadBack (r : SsdsJsonRead) (slots : ℕ → Ptr String) (pkgs : List String)
    (repos : List SsdsRepoInfo) : Prop where
  count : ssdsJsRdGetCount r "req_pkgs" = .ok pkgs.length
  packages : ∃ slots', ssdsJsRdGetPackages slots r = .ok slots' ∧
    ∀ i (hi : i < pkgs.length), slots' i = .good pkgs[i]
  repos : ssdsJsRdRepoInfo r = .ok repos

theorem repoRead_repoJson {r : SsdsRepoInfo} (h : r.Valid) :
    RepoRead (jsonNodeGetObject (some (repoJson r.kept))) r.kept where
  name := rfl
  type := (toInt_eq h.low h.high).symm
  urls := rfl

theorem HasLists.readBack {doc : Json} (h : HasLists doc pkgs repos)
    (hvalid : ∀ r ∈ repos, r.Valid) (slots : ℕ → Ptr String) :
    ReadBack (.ofRoot (some doc)) slots pkgs (repos.map SsdsRepoInfo.kept) := by
  obtain ⟨root, data, rfl, hmember, hpkgs, hfound, hrepos⟩ := h
  have hobj := dataObj_root root
  rw [hmember] at hobj
  refine ⟨?_, ?_, ?_⟩
  · rw [ssdsJsRdGetCount_root, hfound]
  · obtain ⟨slots', hslots⟩ := (ssdsJsRdGetPackages_returns_iff hobj slots).2 ⟨pkgs, hpkgs⟩
    exact ⟨slots', hslots, ssdsJsRdGetPackages_slots hobj hpkgs hslots⟩
  · rw [ssdsJsRdRepoInfo_ok_iff hobj]
    have hdata : jsonNodeGetObject (some (.obj data)) = some data := rfl
    rw [hdata, hrepos, List.forall₂_map_left_iff, List.forall₂_map_right_iff]
    exact List.forall₂_same.2 fun r hr => repoRead_repoJson (hvalid r hr)

/-- **The round trip of a request**: whatever the calls and their order, the server reads back the
packages and repositories that were added, each once and in order, if json-glib reads what it
printed. -/
theorem request_round_trip (c : Code) (calls : List CrCall)
    (hvalid : ∀ repo, .addRepo repo ∈ calls → repo.Valid)
    (print : Json → List Byte) (load : List Byte → Option (Option Json))
    (hload : ∀ json, calls.foldlM CrCall.run (ssdsJsCrInit c) = .ok json →
      load (cstr (print (ssdsJsCrToString json))) = some (some (ssdsJsCrToString json)))
    (fresh : SsdsJsonRead) (slots : ℕ → Ptr String) :
    ∃ json r, calls.foldlM CrCall.run (ssdsJsCrInit c) = .ok json ∧
      ssdsJsRdParse load (some (print (ssdsJsCrToString json))) fresh = (1, r) ∧
      ReadBack r slots (addedPackages calls) ((addedRepos calls).map SsdsRepoInfo.kept) := by
  obtain ⟨json, hrun, hbuilds⟩ := crRun_builds calls (Builds.init c) hvalid
  refine ⟨json, _, hrun, ssdsJsRdParse_some (hload json hrun) fresh, ?_⟩
  refine hbuilds.hasLists.readBack ?_ slots
  intro r hr
  obtain ⟨call, hcall, hrepo⟩ := List.mem_filterMap.1 hr
  cases call with
  | addRepo repo =>
    cases hrepo
    exact hvalid _ hcall
  | _ => cases hrepo

/-- Packages around a repository with two urls. -/
def mixedCalls : List CrCall :=
  [.addPackage "a", .addRepo ⟨["u", "v"], "r", 1⟩, .setMessage "m", .addPackage "b"]

def mixedDoc : Json :=
  .obj [("code", .int 7), ("data", .obj [("req_pkgs", .arr [.str "a", .str "b"]),
    ("repolist", .arr [.obj [("repo_url", .arr [.str "u", .str "v"]), ("name", .str "r"),
      ("type", .int 1)]]), ("message", .str "m")])]

/-- The text of `mixedDoc`, in the order of its members. -/
def mixedText : List Byte :=
  let head := "\x7b\"code\":7,\"data\":\x7b\"req_pkgs\":[\"a\",\"b\"],\"repolist\":"
  let tail := "[\x7b\"repo_url\":[\"u\",\"v\"],\"name\":\"r\",\"type\":1\x7d],\"message\":\"m\"\x7d\x7d"
  (head ++ tail).toList.map fun c => c.toNat.toUInt8

/-- A run of it. -/
theorem request_round_trip_mixed : ∃ json r,
    mixedCalls.foldlM CrCall.run (ssdsJsCrInit .getInstall) = .ok json ∧
      ssdsJsRdParse (loadOnly mixedText mixedDoc) (some mixedText) ⟨.wild, .wild, .wild⟩ = (1, r) ∧
      ReadBack r (fun _ => .wild) ["a", "b"] [⟨["u", "v"], "r", 1⟩] := by
  refine request_round_trip .getInstall mixedCalls ?_ (fun _ => mixedText)
    (loadOnly mixedText mixedDoc) ?_ ⟨.wild, .wild, .wild⟩ (fun _ => .wild)
  · intro repo hrepo
    have hr : repo = ⟨["u", "v"], "r", 1⟩ := by simpa [mixedCalls] using hrepo
    subst hr
    exact ⟨by simp, by decide, by decide⟩
  · intro json h
    cases h
    rfl

end Rds
