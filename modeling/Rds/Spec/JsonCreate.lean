import Rds.Spec.Hawkey
import Rds.Spec.JsonGlib

/-!
# Building a message (`json_create.c`)

A message under construction is a heap of objects and arrays that refer to each other
by address, and the cursors into it: the current object, array and node. The cursors
for the object and the array are not set at first (`wild`), and using one then crashes.

A container whose member is set again stays in the heap. json-glib frees it then, while a cursor may
still point to it; no call is assumed to follow such a cursor.
-/

namespace Rds

/-- What a member or an element holds. -/
inductive Item
  | null
  | int (n : ℤ)
  | bool (b : Bool)
  | str (s : String)
  | ref (addr : ℕ)
  deriving DecidableEq, Repr

/-- A `JsonObject` or `JsonArray` under construction. -/
inductive Container
  | obj (ms : List (String × Item))
  | arr (es : List Item)
  deriving DecidableEq, Repr

/-- A `JsonNode` the builder made itself: the container it holds and its parent. -/
structure JsNode where
  addr : ℕ
  parent : Option ℕ
  deriving DecidableEq, Repr

/-- `SsdsJsonCreate`. The code node is the member `code` of the root object. -/
structure SsdsJsonCreate where
  heap : List Container
  nodes : List JsNode
  rootObj : ℕ
  dataObj : ℕ
  currNode : ℕ
  currObj : Ptr ℕ
  currArray : Ptr ℕ
  deriving DecidableEq, Repr

/-- `SsdsJsInsType`, with the data of the types that take some. -/
inductive JsData
  | string (s : Option String)
  | int (n : ℤ)
  | bool (b : Bool)
  | array
  | obj

/-- The `int` that the data of a number is, read as a `guint`. -/
def guint (n : ℤ) : ℤ := n % 2 ^ 32

/-- A string item; a `NULL` string becomes JSON null. -/
def Item.ofString : Option String → Item
  | none => null
  | some s => str s

/-- The tree below an item. Each step down leads to a container that is not above it,
so the size of the heap is depth enough. -/
def render (heap : List Container) : ℕ → Item → Json
  | _, .null => .null
  | _, .int n => .int n
  | _, .bool b => .bool b
  | _, .str s => .str s
  | 0, .ref _ => .null
  | d + 1, .ref a =>
    match heap[a]? with
    | some (.obj ms) => .obj (ms.map fun m => (m.1, render heap d m.2))
    | some (.arr es) => .arr (es.map (render heap d))
    | none => .null

/-- `json_object_set_*_member` on an object; on `NULL` it does nothing. -/
def setMemberAt (heap : List Container) (obj : Option ℕ) (name : String) (v : Item) :
    List Container :=
  match obj with
  | none => heap
  | some addr => heap.modify addr fun c =>
    match c with
    | .obj ms => .obj (Json.setMember ms name v)
    | .arr es => .arr es

/-- `json_array_add_*_element` on an array; on `NULL` it does nothing. -/
def addElementAt (heap : List Container) (arr : Option ℕ) (v : Item) : List Container :=
  match arr with
  | none => heap
  | some addr => heap.modify addr fun c =>
    match c with
    | .obj ms => .obj ms
    | .arr es => .arr (es ++ [v])

namespace SsdsJsonCreate

/-- The member of that name in the data object. -/
def dataMember (json : SsdsJsonCreate) (name : String) : Option Item :=
  match json.heap[json.dataObj]? with
  | some (.obj ms) => ms.lookup name
  | _ => none

/-- `json_object_get_array_member` on the data object. -/
def dataArray (json : SsdsJsonCreate) (name : String) : Option ℕ :=
  match json.dataMember name with
  | some (.ref a) =>
    match json.heap[a]? with
    | some (.arr _) => some a
    | _ => none
  | _ => none

/-- A node for the container at `addr`, below the current node, becomes current. -/
def pushNode (json : SsdsJsonCreate) (addr : ℕ) : SsdsJsonCreate :=
  { json with nodes := json.nodes ++ [⟨addr, some json.currNode⟩], currNode := json.nodes.length }

/-- A new container put into `heap'`, which was made from the heap by storing a
reference to the address it is about to get. -/
def place (json : SsdsJsonCreate) (heap' : List Container) (c : Container) : SsdsJsonCreate :=
  { json with heap := heap' ++ [c] }

end SsdsJsonCreate

open SsdsJsonCreate

/-- `ssds_js_cr_init` -/
def ssdsJsCrInit (code : Code) : SsdsJsonCreate where
  heap := [.obj [("code", .int code.num), ("data", .ref 1)], .obj []]
  nodes := [⟨0, none⟩, ⟨1, none⟩]
  rootObj := 0
  dataObj := 1
  currNode := 1
  currObj := .wild
  currArray := .wild

/-- `ssds_js_cr_insert_code` -/
def ssdsJsCrInsertCode (json : SsdsJsonCreate) (code : Code) : SsdsJsonCreate :=
  { json with heap := setMemberAt json.heap (some json.rootObj) "code" (.int code.num) }

/-- `ssds_js_cr_set_read_bytes` -/
def ssdsJsCrSetReadBytes (json : SsdsJsonCreate) (bytesRead : ℤ) : SsdsJsonCreate :=
  { json with heap := setMemberAt json.heap (some json.dataObj) "read" (.int bytesRead) }

/-- `ssds_js_cr_set_message` -/
def ssdsJsCrSetMessage (json : SsdsJsonCreate) (msg : String) : SsdsJsonCreate :=
  { json with heap := setMemberAt json.heap (some json.dataObj) "message" (.str msg) }

/-- `ssds_js_cr_add_array_member` -/
def ssdsJsCrAddArrayMember (json : SsdsJsonCreate) (data : JsData) :
    Except Halt SsdsJsonCreate := do
  let arr ← json.currArray.get
  let addr := json.heap.length
  match data with
  | .obj =>
    let json := json.place (addElementAt json.heap arr (.ref addr)) (.obj [])
    return { json with currObj := .good addr }.pushNode addr
  | .array =>
    let json := json.place (addElementAt json.heap arr (.ref addr)) (.arr [])
    return { json with currArray := .good addr }.pushNode addr
  | .string s => return { json with heap := addElementAt json.heap arr (.ofString s) }
  | .bool b => return { json with heap := addElementAt json.heap arr (.bool b) }
  | .int n => return { json with heap := addElementAt json.heap arr (.int (guint n)) }

/-- `ssds_js_cr_add_obj_member` -/
def ssdsJsCrAddObjMember (json : SsdsJsonCreate) (data : JsData) (name : String) :
    Except Halt SsdsJsonCreate := do
  let obj ← json.currObj.get
  let addr := json.heap.length
  match data with
  | .string s => return { json with heap := setMemberAt json.heap obj name (.ofString s) }
  | .bool b => return { json with heap := setMemberAt json.heap obj name (.bool b) }
  | .int n => return { json with heap := setMemberAt json.heap obj name (.int (guint n)) }
  | .obj =>
    let json := json.place (setMemberAt json.heap obj name (.ref addr)) (.obj [])
    return { json with currObj := .good addr }.pushNode addr
  | .array =>
    let json := json.place (setMemberAt json.heap obj name (.ref addr)) (.arr [])
    return { json with currArray := .good addr }.pushNode addr

/-- `ssds_js_cr_new_data`. A number goes to the current object, everything else to the
data object. -/
def ssdsJsCrNewData (json : SsdsJsonCreate) (data : JsData) (name : String) :
    Except Halt SsdsJsonCreate := do
  let addr := json.heap.length
  match data with
  | .array =>
    let json := json.place (setMemberAt json.heap (some json.dataObj) name (.ref addr)) (.arr [])
    return { json with currArray := .good addr }.pushNode addr
  | .obj =>
    let json := json.place (setMemberAt json.heap (some json.dataObj) name (.ref addr)) (.obj [])
    return { json with currObj := .good addr }.pushNode addr
  | .string s => return { json with heap := setMemberAt json.heap (some json.dataObj) name (.ofString s) }
  | .bool b => return { json with heap := setMemberAt json.heap (some json.dataObj) name (.bool b) }
  | .int n =>
    let obj ← json.currObj.get
    return { json with heap := setMemberAt json.heap obj name (.int (guint n)) }

/-- json-glib's path queries on a message under construction: a path that compiles finds nodes below
a node of the heap. -/
abbrev JsonPath := String → Option (List Container → Item → List Item)

/-- `json_node_get_array`: the array a node of the message holds. -/
def nodeGetArray (heap : List Container) : Option Item → Option ℕ
  | some (.ref a) =>
    match heap[a]? with
    | some (.arr _) => some a
    | _ => none
  | _ => none

/-- `ssds_js_cr_switch_array`: its value, and the message. -/
def ssdsJsCrSwitchArray (jsonPath : JsonPath) (json : SsdsJsonCreate) (name : String) :
    Bool × SsdsJsonCreate :=
  match jsonPath ("$.data.." ++ name) with
  | none => (false, json)
  | some search =>
    let resultArr := search json.heap (.ref json.rootObj)
    (true, { json with currArray := .of (nodeGetArray json.heap resultArr[0]?) })

def Container.isArr : Container → Bool
  | arr _ => true
  | obj _ => false

def Container.isObj : Container → Bool
  | obj _ => true
  | arr _ => false

/-- `JSON_NODE_HOLDS_ARRAY` and `JSON_NODE_HOLDS_OBJECT`: what the node holds, if it is of that
kind. -/
def nodeHolds (json : SsdsJsonCreate) (kind : Container → Bool) (node : ℕ) : Option ℕ := do
  let n ← json.nodes[node]?
  let c ← json.heap[n.addr]?
  if kind c then some n.addr else none

/-- The `do … while` loop of `ssds_js_cr_upper_array` and `ssds_js_cr_upper_obj`, `n` turns at
most: the node it stops at and what that holds. The parent of `NULL` is `NULL`, which holds
neither. -/
def upperLoop (json : SsdsJsonCreate) (kind : Container → Bool) :
    ℕ → Option ℕ → Except Halt (ℕ × ℕ)
  | 0, _ => .error .fuel
  | n + 1, node =>
    match node.bind fun i => json.nodes[i]?.bind JsNode.parent with
    | none => upperLoop json kind n none
    | some p =>
      match nodeHolds json kind p with
      | some addr => .ok (p, addr)
      | none => upperLoop json kind n (some p)

/-- `ssds_js_cr_upper_array`, `n` turns at most. -/
def ssdsJsCrUpperArray (n : ℕ) (json : SsdsJsonCreate) : Except Halt SsdsJsonCreate := do
  let (node, arr) ← upperLoop json Container.isArr n (some json.currNode)
  return { json with currNode := node, currArray := .good arr }

/-- `ssds_js_cr_upper_obj`, `n` turns at most. -/
def ssdsJsCrUpperObj (n : ℕ) (json : SsdsJsonCreate) : Except Halt SsdsJsonCreate := do
  let (node, obj) ← upperLoop json Container.isObj n (some json.currNode)
  return { json with currNode := node, currObj := .good obj }

/-- The array of that name in the data object becomes current. A new one is made for a
name not there yet, and its node becomes current. -/
def useArray (json : SsdsJsonCreate) (name : String) : SsdsJsonCreate :=
  let addr := json.heap.length
  if (json.dataMember name).isNone then
    { json.place (setMemberAt json.heap (some json.dataObj) name (.ref addr)) (.arr []) with
      nodes := json.nodes ++ [⟨addr, none⟩], currNode := json.nodes.length, currArray := .good addr }
  else { json with currArray := .of (json.dataArray name) }

/-- `ssds_js_cr_add_package` -/
def ssdsJsCrAddPackage (json : SsdsJsonCreate) (package : String) : Except Halt SsdsJsonCreate := do
  let json := useArray json "req_pkgs"
  let arr ← json.currArray.get
  return { json with heap := addElementAt json.heap arr (.str package) }

/-- The urls of a repository, as elements: all of them or the first. -/
def urlItems (url : List String) (type : ℤ) : List Item :=
  if type = 1 then url.map .str else [.ofString url.head?]

/-- `ssds_js_cr_add_repo`; `url` holds `url_count` urls. -/
def ssdsJsCrAddRepo (json : SsdsJsonCreate) (url : List String) (name : Option String) (type : ℤ) :
    Except Halt SsdsJsonCreate := do
  let json := useArray json "repolist"
  let arr ← json.currArray.get
  let repo := json.heap.length
  let urls := json.heap.length + 1
  let members := [("repo_url", .ref urls), ("name", .ofString name), ("type", .int type)]
  return { json with
    heap := addElementAt json.heap arr (.ref repo) ++ [.obj members, .arr (urlItems url type)],
    nodes := json.nodes ++ [⟨urls, none⟩], currNode := json.nodes.length,
    currObj := .good repo, currArray := .good urls }

/-- The document `ssds_js_cr_to_string` prints. -/
def ssdsJsCrToString (json : SsdsJsonCreate) : Json :=
  render json.heap json.heap.length (.ref json.rootObj)

/-- `SsdsJsArrayStr` -/
def ssdsJsArrayStr : List String := ["install", "upgrade", "erase", "obsolete", "unneeded"]

/-- `JS_ARR_OBSOLETE`, the last name the loop below comes to. -/
def jsArrObsolete : ℕ := 3

/-- The list of a goal that goes into each array of `SsdsJsArrayStr`. -/
def goalLists (goal : HySolution) : List (List HyPackage) :=
  [goal.installs, goal.upgrades, goal.erasures, goal.obsoleted, goal.unneeded]

/-- The object of one package. -/
def insertPkg (json : SsdsJsonCreate) (pkg : HyPackage) : Except Halt SsdsJsonCreate := do
  let json ← ssdsJsCrAddArrayMember json .obj
  let json ← ssdsJsCrAddObjMember json (.string (some pkg.name)) "pkg_name"
  let json ← ssdsJsCrAddObjMember json (.string pkg.location) "pkg_loc"
  match pkg.baseurl with
  | none =>
    let json ← ssdsJsCrAddObjMember json (.string none) "base_url"
    ssdsJsCrAddObjMember json (.string (some pkg.reponame)) "metalink"
  | some url =>
    let json ← ssdsJsCrAddObjMember json (.string (some url)) "base_url"
    ssdsJsCrAddObjMember json (.string (some pkg.reponame)) "metalink"

/-- The loop over one package list, from the last package to the first. -/
def insertPkgs (json : SsdsJsonCreate) (pkgs : List HyPackage) : Except Halt SsdsJsonCreate :=
  pkgs.reverse.foldlM insertPkg json

/-- One turn of `ssds_js_cr_pkgs_insert`: the array of that name becomes current and
takes the packages. -/
def insertArray (json : SsdsJsonCreate) (name : String) (pkgs : List HyPackage) :
    Except Halt SsdsJsonCreate := do
  let json ←
    if (json.dataMember name).isNone then ssdsJsCrNewData json .array name
    else pure { json with currArray := .of (json.dataArray name) }
  insertPkgs json pkgs

/-- `ssds_js_cr_pkgs_insert` -/
def ssdsJsCrPkgsInsert (json : SsdsJsonCreate) (goal : HySolution) : Except Halt SsdsJsonCreate :=
  ((ssdsJsArrayStr.zip (goalLists goal)).take (jsArrObsolete + 1)).foldlM
    (fun json a => insertArray json a.1 a.2) json

end Rds
