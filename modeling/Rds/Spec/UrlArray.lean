import Rds.Spec.RepoMetadata

/-!
# The url array of a repository (`json_read.c`, `repo_metadata.c`)

The decoder allocates `repo->urls` with a slot for each element of `repo_url`. What is done to the
array afterwards, access by access, in the order of the source.
-/

namespace Rds

/-- `repo->urls`: the slots allocated, and what is in them. -/
structure UrlArray where
  size : ℕ
  slots : ℕ → Ptr String

/-- An access to it. -/
inductive UrlAccess
  | terminate (i : ℕ) -- `urls[i] = NULL`
  | read (i : ℕ)
  | readAll -- as `LRO_URLS`, up to the first `NULL`
  deriving DecidableEq, Repr

/-- The array `ssds_js_rd_repo_info` makes of `repo_url`. -/
def decodedUrls (urlArr : Option JsonArray) : UrlArray where
  size := jsonArrayGetLength urlArr
  slots i :=
    match jsonArrayGetStringElement urlArr i with
    | some word => .good word
    | none => .wild

/-- The arrays it makes of `repolist`. -/
def decodedArrays (data : Option JsonObject) : List UrlArray :=
  ((jsonObjectGetArrayMember data "repolist").getD []).map fun e =>
    decodedUrls (jsonObjectGetArrayMember (jsonNodeGetObject (some e)) "repo_url")

/-- `local_repo_metadata`: the first url names the entry. -/
def localRepoMetadataAccesses (cache : Cache) (repo : SsdsRepoInfo) : List UrlAccess :=
  match cache (resolvePath (fullPathToMetadata repo.name)) with
  | some _ => [.read 0]
  | none => []

/-- The `switch` of `download_repo_metadata_by_url`. -/
def urlOptionAccesses (repo : SsdsRepoInfo) : List UrlAccess :=
  match repo.type with
  | 1 => [.readAll]
  | 2 => [.read 0]
  | 3 => [.read 0]
  | _ => []

/-- `download_repo_metadata_by_url`: the terminator comes first, and the name of the entry after a
download that succeeded. -/
def downloadRepoMetadataByUrlAccesses (repo : SsdsRepoInfo) (download : Download) : List UrlAccess :=
  .terminate repo.count :: urlOptionAccesses repo ++
    if (urlOption repo).isSome && download.isSome then [.read 0] else []

/-- One turn of the loop of `ssds_locate_repo_metadata`. -/
def locateOneAccesses (st : Cache × List SsdsMetadataFilesLoc) (rd : SsdsRepoInfo × Download) :
    List UrlAccess :=
  if (localRepoMetadata st.1 rd.1 st.2).1 then localRepoMetadataAccesses st.1 rd.1
  else localRepoMetadataAccesses st.1 rd.1 ++ downloadRepoMetadataByUrlAccesses rd.1 rd.2

/-- `ssds_locate_repo_metadata`: the accesses to the array of each repository. -/
def ssdsLocateRepoMetadataAccesses :
    Cache × List SsdsMetadataFilesLoc → List (SsdsRepoInfo × Download) → List (List UrlAccess)
  | _, [] => []
  | st, rd :: rds =>
    locateOneAccesses st rd :: ssdsLocateRepoMetadataAccesses (locateOne st rd) rds

end Rds
