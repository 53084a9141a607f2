import Rds.Spec.JsonGlib
import Rds.Spec.NetworkUtil
import Mathlib.Logic.Function.Basic

/-!
# Reading a message (`json_read.c`)

A reader is allocated without being filled: until `ssds_js_rd_parse` sets its fields
they hold whatever the memory held. So a reader is made from its old contents, and
following a field that was never set can crash.
-/

namespace Rds

/-- `SsdsJsonRead`: the fields that are read. -/
structure SsdsJsonRead where
  rootNode : Ptr Json
  dataNode : Ptr Json
  dataObj : Ptr JsonObject

/-- `EXIT_FAILURE` of `stdlib.h`. -/
def exitFailure : ℤ := 1

/-- The fields `ssds_js_rd_parse` sets for an accepted document. -/
def SsdsJsonRead.ofRoot (root : Option Json) : SsdsJsonRead :=
  let obj := jsonNodeGetObject root
  let dataNode := jsonObjectGetMember obj "data"
  { rootNode := .of root, dataNode := .of dataNode, dataObj := .of (jsonNodeGetObject dataNode) }

/-- `ssds_js_rd_parse`. `load` is `json_parser_load_from_data` with
`json_parser_get_root`: `none` refuses the text, `some none` is an accepted text
without a document. A `NULL` buffer is refused. -/
def ssdsJsRdParse (load : List Byte → Option (Option Json)) (buffer : Option (List Byte))
    (json : SsdsJsonRead) : ℤ × SsdsJsonRead :=
  match buffer.bind fun b => load (cstr b) with
  | none => (exitFailure, json)
  | some root => (1, .ofRoot root)

/-- What became of a message on its way: nothing was received, the text was refused, or it
was accepted. -/
inductive Delivery
  | lost
  | refused
  | document (root : Option Json)

/-- What becomes of the buffer `sock_recv` returned. -/
def Delivery.ofBuffer (load : List Byte → Option (Option Json)) : Option (List Byte) → Delivery
  | none => lost
  | some b =>
    match load (cstr b) with
    | none => refused
    | some root => document root

/-- `ssds_js_rd_parse`, by what became of the message. -/
def Delivery.parse (d : Delivery) (json : SsdsJsonRead) : ℤ × SsdsJsonRead :=
  match d with
  | document root => (1, .ofRoot root)
  | _ => (exitFailure, json)

/-- `ssds_js_rd_get_code` -/
def ssdsJsRdGetCode (json : SsdsJsonRead) : Except Halt ℤ := do
  let obj := jsonNodeGetObject (← json.rootNode.get)
  if jsonObjectHasMember obj "code" then return toInt (jsonObjectGetIntMember obj "code")
  else return -1

/-- `ssds_js_rd_get_read_bytes` -/
def ssdsJsRdGetReadBytes (json : SsdsJsonRead) : Except Halt ℤ := do
  let obj ← json.dataObj.get
  if jsonObjectHasMember obj "read" then return toInt (jsonObjectGetIntMember obj "read")
  else return -1

/-- `ssds_js_rd_get_message` -/
def ssdsJsRdGetMessage (json : SsdsJsonRead) : Except Halt (Option String) := do
  let obj ← json.dataObj.get
  if jsonObjectHasMember obj "message" then return jsonObjectGetStringMember obj "message"
  else return none

/-- `ssds_js_rd_get_count`: the length of the first node that `$.data..name` finds. -/
def ssdsJsRdGetCount (json : SsdsJsonRead) (name : String) : Except Halt ℕ := do
  let result := jsonPathMatchData name (← json.rootNode.get)
  return jsonArrayGetLength (jsonArrayGetArrayElement result 0)

/-- The loop of `ssds_js_rd_get_packages`, `n` turns from `i` on. -/
def getPackagesLoop (array : Option JsonArray) : ℕ → ℕ → (ℕ → Ptr String) →
    Except Halt (ℕ → Ptr String)
  | 0, _, pkgs => .ok pkgs
  | n + 1, i, pkgs =>
    match jsonArrayGetStringElement array i with
    | none => .error .crash -- `strlen` of `NULL`
    | some word => getPackagesLoop array n (i + 1) (Function.update pkgs i (.good word))

/-- `ssds_js_rd_get_packages`: the slots of `pkgs` after it. The terminator goes to the
slot after the one that follows the last name (`pkgs[++i] = NULL`); there is a slot for every number
here, and `Perils.namesOutside` says when one is beyond the array. -/
def ssdsJsRdGetPackages (pkgs : ℕ → Ptr String) (json : SsdsJsonRead) :
    Except Halt (ℕ → Ptr String) := do
  let array := jsonObjectGetArrayMember (← json.dataObj.get) "req_pkgs"
  let len := jsonArrayGetLength array
  let pkgs ← getPackagesLoop array len 0 pkgs
  return Function.update pkgs (len + 1) .null

/-- The stores of `ssds_js_rd_get_packages` into `pkgs`, in order, with `n` turns of its loop to
come. -/
def packagesStores (array : Option JsonArray) : ℕ → ℕ → Except Halt (List (ℕ × Ptr String))
  | 0, i => .ok [(i + 1, .null)] -- `pkgs[++i] = NULL`
  | n + 1, i =>
    match jsonArrayGetStringElement array i with
    | none => .error .crash
    | some word => do return (i, .good word) :: (← packagesStores array n (i + 1))

/-- The stores of `ssds_js_rd_get_packages`. -/
def ssdsJsRdGetPackagesStores (json : SsdsJsonRead) : Except Halt (List (ℕ × Ptr String)) := do
  let array := jsonObjectGetArrayMember (← json.dataObj.get) "req_pkgs"
  packagesStores array (jsonArrayGetLength array) 0

/-- `SsdsRepoInfo` -/
structure SsdsRepoInfo where
  urls : List String
  name : String
  type : ℤ
  deriving DecidableEq, Repr

/-- `repo->count`: one for each url stored. -/
def SsdsRepoInfo.count (r : SsdsRepoInfo) : ℕ := r.urls.length

/-- The copy of `repo_url`, `n` turns from `j` on. -/
def repoUrlLoop (urlArr : Option JsonArray) : ℕ → ℕ → Except Halt (List String)
  | 0, _ => .ok []
  | n + 1, j =>
    match jsonArrayGetStringElement urlArr j with
    | none => .error .crash
    | some word => do return word :: (← repoUrlLoop urlArr n (j + 1))

/-- One turn of `ssds_js_rd_repo_info`. -/
def repoInfoAt (array : Option JsonArray) (i : ℕ) : Except Halt SsdsRepoInfo := do
  let obj := jsonArrayGetObjectElement array i
  let type := toInt (jsonObjectGetIntMember obj "type")
  match jsonObjectGetStringMember obj "name" with
  | none => .error .crash
  | some currName =>
    let urlArr := jsonObjectGetArrayMember obj "repo_url"
    let urls ← repoUrlLoop urlArr (jsonArrayGetLength urlArr) 0
    return { urls, name := currName, type }

/-- `ssds_js_rd_repo_info`: the list it fills. -/
def ssdsJsRdRepoInfo (json : SsdsJsonRead) : Except Halt (List SsdsRepoInfo) := do
  let array := jsonObjectGetArrayMember (← json.dataObj.get) "repolist"
  (List.range (jsonArrayGetLength array)).mapM (repoInfoAt array)

/-- `SsdsJsonPkg` -/
structure SsdsJsonPkg where
  pkgName : Option String
  pkgLoc : Option String
  baseUrl : Option String
  metalink : Option String
  deriving DecidableEq, Repr

/-- One turn of `ssds_js_rd_parse_answer`. -/
def answerPkgAt (array : Option JsonArray) (i : ℕ) : SsdsJsonPkg :=
  let obj := jsonArrayGetObjectElement array i
  let pkgName := jsonObjectGetStringMember obj "pkg_name"
  let pkgLoc := jsonObjectGetStringMember obj "pkg_loc"
  if jsonObjectGetNullMember obj "base_url" then
    { pkgName, pkgLoc, baseUrl := none, metalink := jsonObjectGetStringMember obj "metalink" }
  else { pkgName, pkgLoc, baseUrl := jsonObjectGetStringMember obj "base_url", metalink := none }

/-- `ssds_js_rd_parse_answer`: the list starts with the cell of `g_slist_alloc`, which
holds nothing. -/
def ssdsJsRdParseAnswer (name : String) (json : SsdsJsonRead) :
    Except Halt (List (Option SsdsJsonPkg)) := do
  let array := jsonObjectGetArrayMember (← json.dataObj.get) name
  let count ← ssdsJsRdGetCount json name
  return none :: (List.range count).map fun i => some (answerPkgAt array i)

/-! ## Readers of accepted documents -/

theorem ssdsJsRdParse_some {load : List Byte → Option (Option Json)} {b : List Byte}
    {root : Option Json} (h : load (cstr b) = some root) (json : SsdsJsonRead) :
    ssdsJsRdParse load (some b) json = (1, .ofRoot root) := by
  unfold ssdsJsRdParse; simp [h]

theorem ssdsJsRdParse_none {load : List Byte → Option (Option Json)} {b : List Byte}
    (h : load (cstr b) = none) (json : SsdsJsonRead) :
    ssdsJsRdParse load (some b) json = (exitFailure, json) := by
  unfold ssdsJsRdParse; simp [h]

/-- **The parse never returns `FALSE`**: it returns `EXIT_FAILURE`, which is not 0, where
it means to. -/
theorem ssdsJsRdParse_ne_zero (load : List Byte → Option (Option Json))
    (buffer : Option (List Byte)) (json : SsdsJsonRead) :
    (ssdsJsRdParse load buffer json).1 ≠ 0 := by
  unfold ssdsJsRdParse exitFailure
  split <;> simp

end Rds
