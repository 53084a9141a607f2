import Rds.Spec.JsonCreate

/-!
# The repositories of a request (`repo_handler.c`)

`ssds_get_repo_urls`. librepo answers for a repository what its section of a `.repo` file sets,
and puts the values of variables into a url.
-/

namespace Rds

/-- `SsdsJsonUrlType` -/
inductive SsdsJsonUrlType
  | baseurl
  | mirrorlist
  | metalink
  deriving DecidableEq, Repr

def SsdsJsonUrlType.num : SsdsJsonUrlType → ℤ
  | baseurl => 1
  | mirrorlist => 2
  | metalink => 3

/-- What `lr_yum_repoconf_getinfo` finds for a repository. An option that is not set is `none`, and
one that is set to nothing is an empty list. -/
structure LrYumRepoConf where
  enabled : Bool
  id : String
  mirrorlist : Option String
  metalink : Option String
  baseurl : Option (List String)
  deriving DecidableEq, Repr

/-- `LrUrlVars`: names and values. -/
abbrev LrUrlVars := List (String × String)

/-- The variables of one turn: the urls in the array, `k` and `type`. -/
structure UrlChoice where
  url : List String
  k : ℕ
  type : ℤ
  deriving DecidableEq, Repr

/-- `while(url[k]) k++;` over what is left of the array from `url[k]` on. Nothing is behind the
`NULL` at its end. -/
def countUrls : List (Option String) → ℕ → Except Halt ℕ
  | [], _ => .error .crash
  | none :: _, k => .ok k
  | some _ :: rest, k => countUrls rest (k + 1)

/-- The mirrorlist, if there is one. -/
def chooseMirrorlist (conf : LrYumRepoConf) (v : UrlChoice) : UrlChoice :=
  match conf.mirrorlist with
  | some val => { url := [val], k := 1, type := SsdsJsonUrlType.mirrorlist.num }
  | none => v

/-- The metalink, if there is one. -/
def chooseMetalink (conf : LrYumRepoConf) (v : UrlChoice) : UrlChoice :=
  match conf.metalink with
  | some val => { url := [val], k := 1, type := SsdsJsonUrlType.metalink.num }
  | none => v

/-- The base urls, if they are set. `k` is that of the source before. -/
def chooseBaseurl (conf : LrYumRepoConf) (v : UrlChoice) : Except Halt UrlChoice :=
  match conf.baseurl with
  | some val => do
    let k ← countUrls ((val.map some ++ [none]).drop v.k) v.k
    return { url := val, k, type := SsdsJsonUrlType.baseurl.num }
  | none => .ok v

section
variable (lrUrlSubstitute : String → LrUrlVars → String) (arch release : String)

/-- The variables for a url. -/
def urlVars : LrUrlVars := [("releasever", release), ("basearch", arch)]

/-- One turn of the loop of `ssds_get_repo_urls`. -/
def getRepoUrl (json : SsdsJsonCreate) (conf : LrYumRepoConf) : Except Halt SsdsJsonCreate :=
  if conf.enabled then do
    let v := chooseMetalink conf (chooseMirrorlist conf { url := [], k := 0, type := 0 })
    let v ← chooseBaseurl conf v
    let urlSubstList := (v.url.take v.k).map fun u => lrUrlSubstitute u (urlVars arch release)
    ssdsJsCrAddRepo json urlSubstList (some conf.id) v.type
  else return json

/-- `ssds_get_repo_urls` -/
def ssdsGetRepoUrls (list : List LrYumRepoConf) (json : SsdsJsonCreate) :
    Except Halt SsdsJsonCreate :=
  list.foldlM (getRepoUrl lrUrlSubstitute arch release) json

end

end Rds
