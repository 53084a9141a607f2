import Rds.Spec.UrlArray
import Rds.Proof.Decode

/-!
# Accesses to the url arrays

* `UrlArray.Sound`: accesses inside an array that read only what was stored there.
* `locateOneAccesses_sound_iff`: a repository that has to be downloaded is terminated one slot
  behind its last url, and the decoder has allocated no slot for that.
* `urls_in_bounds_iff`: so the accesses are sound if all metadata is there already.
-/

namespace Rds

/-- The array ends with `NULL`, and every slot in front of it was stored to. -/
def UrlArray.Terminated (a : UrlArray) : Prop :=
  ∃ n < a.size, a.slots n = .null ∧ ∀ i < n, a.slots i ≠ .wild

/-- **Accesses that are sound**: each is inside the array, each slot read was stored to, and an
array that is read as a whole ends with `NULL`. -/
def UrlArray.Sound : UrlArray → List UrlAccess → Prop
  | _, [] => True
  | a, .terminate i :: rest =>
    i < a.size ∧ Sound { a with slots := Function.update a.slots i .null } rest
  | a, .read i :: rest => i < a.size ∧ a.slots i ≠ .wild ∧ Sound a rest
  | a, .readAll :: rest => a.Terminated ∧ Sound a rest

/-- The data of a request. -/
def requestData (root : Option Json) : Option JsonObject :=
  jsonNodeGetObject (jsonObjectGetMember (jsonNodeGetObject root) "data")

/-- **The url arrays of a request are accessed soundly** by `ssds_locate_repo_metadata`. -/
def UrlsInBounds (cache : Cache) (root : Option Json) (repos : List SsdsRepoInfo)
    (download : ℕ → Download) : Prop :=
  List.Forall₂ UrlArray.Sound (decodedArrays (requestData root))
    (ssdsLocateRepoMetadataAccesses (cache, []) (repos.zipIdx.map fun r => (r.1, download r.2)))

/-- Local metadata for a repository. -/
def FoundLocally (cache : Cache) (repo : SsdsRepoInfo) : Prop :=
  cache (resolvePath (fullPathToMetadata repo.name)) ≠ none

/-! ## One repository -/

/-- The decoder fills the array it has allocated. -/
theorem RepoRead.array {obj : Option JsonObject} {info : SsdsRepoInfo} (h : RepoRead obj info) :
    (decodedUrls (jsonObjectGetArrayMember obj "repo_url")).size = info.count ∧
      ∀ i < info.count, (decodedUrls (jsonObjectGetArrayMember obj "repo_url")).slots i ≠ .wild := by
  obtain ⟨hlen, hget⟩ := strings_iff.1 h.urls
  refine ⟨hlen.symm, ?_⟩
  intro i hi
  have hlt : i < info.urls.length := hi
  have helem := hget i (by omega)
  rw [List.getElem?_eq_getElem hlt] at helem
  simp [decodedUrls, helem]

variable {cache : Cache} {list : List SsdsMetadataFilesLoc} {repo : SsdsRepoInfo} {download : Download}
  {a : UrlArray}

/-- **One turn**: it stays inside the array if the metadata is found locally and there is a url to
name it by. -/
theorem locateOneAccesses_sound_iff (hsize : a.size = repo.count)
    (hset : ∀ i < repo.count, a.slots i ≠ .wild) :
    a.Sound (locateOneAccesses (cache, list) (repo, download)) ↔
      FoundLocally cache repo ∧ repo.urls ≠ [] := by
  unfold FoundLocally locateOneAccesses localRepoMetadata localRepoMetadataAccesses
  have hcount : repo.count = repo.urls.length := rfl
  cases hmd : cache (resolvePath (fullPathToMetadata repo.name)) with
  | some md =>
    simp only [hmd, if_true, UrlArray.Sound, and_true, hsize]
    have hpos : 0 < repo.count ↔ repo.urls ≠ [] := by rw [hcount, List.length_pos_iff]
    constructor
    · rintro ⟨hlt, -⟩
      exact ⟨by simp, hpos.1 hlt⟩
    · rintro ⟨-, hne⟩
      have hlt := hpos.2 hne
      exact ⟨hlt, hset 0 hlt⟩
  | none =>
    -- the slot behind the last url is not part of the array
    simp only [hmd, Bool.false_eq_true, if_false, List.nil_append, downloadRepoMetadataByUrlAccesses,
      List.cons_append, UrlArray.Sound, hsize]
    simp

/-- A repository that is found leaves the cache alone. -/
theorem locateOne_found (h : FoundLocally cache repo) :
    (locateOne (cache, list) (repo, download)).1 = cache := by
  unfold FoundLocally at h
  unfold locateOne localRepoMetadata
  cases hmd : cache (resolvePath (fullPathToMetadata repo.name)) with
  | some md => simp only [hmd]
  | none => exact absurd hmd h

/-! ## All of them -/

/-- **The loop**: every turn stays inside its array if every repository is found locally, where
nothing is downloaded, and has a url. -/
theorem locateAccesses_sound_iff {arrays : List UrlArray} {rds : List (SsdsRepoInfo × Download)}
    (h : List.Forall₂ (fun (a : UrlArray) (rd : SsdsRepoInfo × Download) => a.size = rd.1.count ∧
      ∀ i < rd.1.count, a.slots i ≠ .wild) arrays rds) :
    ∀ {list : List SsdsMetadataFilesLoc},
      List.Forall₂ UrlArray.Sound arrays (ssdsLocateRepoMetadataAccesses (cache, list) rds) ↔
        ∀ rd ∈ rds, FoundLocally cache rd.1 ∧ rd.1.urls ≠ [] := by
  induction h with
  | nil => simp [ssdsLocateRepoMetadataAccesses]
  | @cons a rd arrays rds hrd _ ih =>
    intro list
    obtain ⟨repo, download⟩ := rd
    rw [ssdsLocateRepoMetadataAccesses, List.forall₂_cons, List.forall_mem_cons,
      locateOneAccesses_sound_iff hrd.1 hrd.2]
    refine and_congr_right fun hone => ?_
    -- the turn has not changed the cache, so the next ones start from the same
    have hcache : (locateOne (cache, list) (repo, download)).1 = cache := locateOne_found hone.1
    have hst : locateOne (cache, list) (repo, download) =
        (cache, (locateOne (cache, list) (repo, download)).2) := Prod.ext hcache rfl
    rw [hst]
    exact ih

/-- **When the url arrays are accessed soundly**: no repository of the request has to be
downloaded, and each has a url. -/
theorem urls_in_bounds_iff (cache : Cache) (root : Option Json) (repos : List SsdsRepoInfo)
    (download : ℕ → Download) (h : ssdsJsRdRepoInfo (.ofRoot root) = .ok repos) :
    UrlsInBounds cache root repos download ↔
      ∀ repo ∈ repos, FoundLocally cache repo ∧ repo.urls ≠ [] := by
  have hobj : (SsdsJsonRead.ofRoot root).dataObj.get = .ok (requestData root) := Ptr.get_of _
  have hread := (ssdsJsRdRepoInfo_ok_iff hobj).1 h
  have hrepos : (repos.zipIdx.map fun r => (r.1, download r.2)).map Prod.fst = repos := by
    rw [List.map_map]
    exact List.zipIdx_map_fst 0 repos
  have harrays : List.Forall₂ (fun (a : UrlArray) (rd : SsdsRepoInfo × Download) =>
      a.size = rd.1.count ∧ ∀ i < rd.1.count, a.slots i ≠ .wild) (decodedArrays (requestData root))
      (repos.zipIdx.map fun r => (r.1, download r.2)) := by
    rw [← hrepos, List.forall₂_map_right_iff] at hread
    unfold decodedArrays
    rw [List.forall₂_map_left_iff]
    exact hread.imp fun e rd hrd => hrd.array
  unfold UrlsInBounds
  rw [locateAccesses_sound_iff harrays]
  constructor
  · intro hall repo hrepo
    rw [← hrepos] at hrepo
    obtain ⟨rd, hrd, rfl⟩ := List.mem_map.1 hrepo
    exact hall rd hrd
  · intro hall rd hrd
    refine hall rd.1 ?_
    rw [← hrepos]
    exact List.mem_map_of_mem hrd

/-- A request with one repository. -/
def oneRepo (urls : List Json) : Option Json :=
  some (.obj [("data", .obj [("repolist", .arr [.obj [("name", .str "updates"), ("type", .int 1),
    ("repo_url", .arr urls)]])])])

/-- The repository decoded from it. -/
def updatesRepo (urls : List String) : SsdsRepoInfo where
  urls := urls
  name := "updates"
  type := 1

/-- Metadata that was downloaded before. -/
def oldMetadata : Metadata where
  origin := .urls ["http://a/"]
  filelists := "filelists.xml.gz"
  primary := "primary.xml.gz"

/-- Its metadata is in the cache. -/
theorem urls_in_bounds_iff_cached :
    UrlsInBounds (fun _ => some oldMetadata) (oneRepo [.str "http://a/"])
        [updatesRepo ["http://a/"]] (fun _ => none) ↔
      ∀ repo ∈ [updatesRepo ["http://a/"]], FoundLocally (fun _ => some oldMetadata) repo ∧
        repo.urls ≠ [] :=
  urls_in_bounds_iff _ _ _ _ rfl

/-- The first request for a repository: its one url is in an array of one slot, and the terminator
goes behind that. -/
theorem urls_in_bounds_fails :
    ssdsJsRdRepoInfo (.ofRoot (oneRepo [.str "http://a/"])) = .ok [updatesRepo ["http://a/"]] ∧
      ¬ UrlsInBounds (fun _ => none) (oneRepo [.str "http://a/"]) [updatesRepo ["http://a/"]]
        fun _ => none := by
  refine ⟨rfl, ?_⟩
  intro h
  cases h with
  | cons hone _ => exact absurd hone.1 (by decide)

end Rds
