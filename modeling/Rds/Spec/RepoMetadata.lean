import Rds.Spec.JsonRead

/-!
# Repository metadata on the server (`repo_metadata.c`)

The metadata directories under `/tmp/ssds/` are a map from directories to what librepo
last downloaded there. librepo finds local metadata in a directory exactly when there
is some.
-/

namespace Rds

/-- Where a handle downloads from: the option that was set and its value. -/
inductive UrlSource
  | urls (us : List String)
  | mirrorlist (u : String)
  | metalink (u : String)
  deriving DecidableEq, Repr

/-- Downloaded metadata: where from, and the files librepo reports. -/
structure Metadata where
  origin : UrlSource
  filelists : String
  primary : String
  deriving DecidableEq, Repr

/-- A directory, as the names that lead to it from the root. -/
abbrev Dir := List (List Char)

/-- What each metadata directory holds. -/
abbrev Cache := Dir → Option Metadata

/-- The directory a path leads to: empty names and `.` stay, `..` goes up. -/
def resolvePath (path : String) : Dir :=
  (path.toList.splitOn '/').foldl
    (fun d part =>
      if part = [] ∨ part = ['.'] then d else if part = ['.', '.'] then d.dropLast else d ++ [part])
    []

/-- `SsdsMetadataFilesLoc`. An empty url array has no first url to name the entry by. -/
structure SsdsMetadataFilesLoc where
  repomd : String
  filelists : String
  primary : String
  repoName : Option String
  deriving DecidableEq, Repr

/-- `full_path_to_metadata` -/
def fullPathToMetadata (repoName : String) : String := "/tmp/ssds/" ++ repoName

/-- The url option `download_repo_metadata_by_url` sets. Without a url there is nothing to
download from. -/
def urlOption (repo : SsdsRepoInfo) : Option UrlSource :=
  match repo.type with
  | 1 => if repo.urls = [] then none else some (.urls repo.urls)
  | 2 => repo.urls.head?.map .mirrorlist
  | 3 => repo.urls.head?.map .metalink
  | _ => none

/-- The entry for metadata in the directory at `path`. -/
def metadataLoc (path : String) (md : Metadata) (repo : SsdsRepoInfo) : SsdsMetadataFilesLoc where
  repomd := path
  filelists := md.filelists
  primary := md.primary
  repoName := repo.urls.head?

/-- `local_repo_metadata`: whether it found some, and the list. -/
def localRepoMetadata (cache : Cache) (repo : SsdsRepoInfo) (list : List SsdsMetadataFilesLoc) :
    Bool × List SsdsMetadataFilesLoc :=
  let localPath := fullPathToMetadata repo.name
  match cache (resolvePath localPath) with
  | some md => (true, list ++ [metadataLoc localPath md repo])
  | none => (false, list)

/-- What a download brings: nothing, or the names of the files. -/
abbrev Download := Option (String × String)

/-- `download_repo_metadata_by_url`, with what `lr_handle_perform` brings. -/
def downloadRepoMetadataByUrl (cache : Cache) (repo : SsdsRepoInfo) (download : Download)
    (list : List SsdsMetadataFilesLoc) : Cache × List SsdsMetadataFilesLoc :=
  let fullPath := fullPathToMetadata repo.name
  match urlOption repo, download with
  | some origin, some (filelists, primary) =>
    let md : Metadata := { origin, filelists, primary }
    (Function.update cache (resolvePath fullPath) (some md), list ++ [metadataLoc fullPath md repo])
  | _, _ => (cache, list)

/-- One turn of the loop of `ssds_locate_repo_metadata`. -/
def locateOne (st : Cache × List SsdsMetadataFilesLoc) (rd : SsdsRepoInfo × Download) :
    Cache × List SsdsMetadataFilesLoc :=
  match localRepoMetadata st.1 rd.1 st.2 with
  | (true, list) => (st.1, list)
  | (false, list) => downloadRepoMetadataByUrl st.1 rd.1 rd.2 list

/-- `ssds_locate_repo_metadata` on the repositories of a request, each with what a
download would bring. -/
def ssdsLocateRepoMetadata (cache : Cache) (repos : List (SsdsRepoInfo × Download)) :
    Cache × List SsdsMetadataFilesLoc :=
  repos.foldl locateOne (cache, [])

end Rds
