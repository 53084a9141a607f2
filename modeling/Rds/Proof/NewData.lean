import Rds.Proof.Builder
import Mathlib.Data.List.Basic

/-!
# New data under the data object

Where `ssds_js_cr_new_data` puts a value, in every state the calls of the builder can reach. A
container that a member of the same name has replaced counts as still there, as in the model.

* `DataKept.run`: no call moves the data object, or makes it or the root the current object.
* `new_data_iff`: everything but a number goes to the data object.
-/

namespace Rds

open SsdsJsonCreate

variable {jsonPath : JsonPath} {json json' : SsdsJsonCreate} {heap : List Container} {data : JsData}
  {name : String}

/-- The calls that build a message. -/
inductive BuildCall
  | newData (data : JsData) (name : String)
  | addArrayMember (data : JsData)
  | addObjMember (data : JsData) (name : String)
  | addPackage (package : String)
  | addRepo (url : List String) (name : Option String) (type : ℤ)
  | switchArray (name : String)

/-- One call. It crashes if the cursor it uses has not been set. -/
def BuildCall.run (jsonPath : JsonPath) (json : SsdsJsonCreate) :
    BuildCall → Except Halt SsdsJsonCreate
  | newData data name => ssdsJsCrNewData json data name
  | addArrayMember data => ssdsJsCrAddArrayMember json data
  | addObjMember data name => ssdsJsCrAddObjMember json data name
  | addPackage package => ssdsJsCrAddPackage json package
  | addRepo url name type => ssdsJsCrAddRepo json url name type
  | switchArray name => .ok (ssdsJsCrSwitchArray jsonPath json name).2

/-- **The states of a message**: what some calls have made of the initial one. -/
def Composed (jsonPath : JsonPath) (json : SsdsJsonCreate) : Prop :=
  ∃ (code : Code) (calls : List BuildCall),
    calls.foldlM (BuildCall.run jsonPath) (ssdsJsCrInit code) = .ok json

/-! ## The law -/

/-- The top-level data object: what the member `data` of the root object refers to. -/
def topData (json : SsdsJsonCreate) : Option ℕ :=
  match json.heap[json.rootObj]? with
  | some (.obj ms) =>
    match ms.lookup "data" with
    | some (.ref a) => some a
    | _ => none
  | _ => none

/-- What a member is given, if the next container goes to `addr`. -/
def JsData.item (addr : ℕ) : JsData → Item
  | string s => .ofString s
  | int n => .int n
  | bool b => .bool b
  | array => .ref addr
  | obj => .ref addr

/-- The container that is made for it. -/
def JsData.container : JsData → Option Container
  | array => some (.arr [])
  | obj => some (.obj [])
  | _ => none

/-- The new container becomes current. -/
def JsData.Current (data : JsData) (addr : ℕ) (json' : SsdsJsonCreate) : Prop :=
  match data with
  | array => json'.currArray = .good addr
  | obj => json'.currObj = .good addr
  | _ => True

/-- **The data object is given the member, and nothing else is changed.** -/
structure SetsData (json : SsdsJsonCreate) (data : JsData) (name : String)
    (json' : SsdsJsonCreate) : Prop where
  member : ∃ d ms ms', topData json = some d ∧ json.heap[d]? = some (.obj ms) ∧
    json'.heap[d]? = some (.obj ms') ∧ ms'.lookup name = some (data.item json.heap.length) ∧
    ∀ other ≠ name, ms'.lookup other = ms.lookup other
  others : ∀ i < json.heap.length, topData json ≠ some i → json'.heap[i]? = json.heap[i]?
  added : json'.heap.drop json.heap.length = data.container.toList
  current : data.Current json.heap.length json'

/-! ## What the calls keep -/

theorem getElem?_setMemberAt_ne {i : ℕ} {obj : Option ℕ} (h : obj ≠ some i) (v : Item) :
    (setMemberAt heap obj name v)[i]? = heap[i]? := by
  cases obj with
  | none => rfl
  | some a =>
    have hne : a ≠ i := fun heq => h (congrArg some heq)
    exact List.getElem?_modify_ne _ _ hne

/-- An element goes to no object. -/
theorem getElem?_addElementAt_obj {i : ℕ} {ms : List (String × Item)}
    (h : heap[i]? = some (.obj ms)) (arr : Option ℕ) (v : Item) :
    (addElementAt heap arr v)[i]? = some (.obj ms) := by
  cases arr with
  | none => exact h
  | some a =>
    unfold addElementAt
    rw [List.getElem?_modify, h]
    by_cases ha : a = i <;> simp [ha]

/-- **The top of a message**: the root object refers to the data object, which holds no number. -/
structure Top (heap : List Container) : Prop where
  root : ∃ c, heap[0]? = some (.obj [("code", .int c), ("data", .ref 1)])
  data : ∃ ms, heap[1]? = some (.obj ms) ∧ ∀ m ∈ ms, ∀ n, m.2 ≠ .int n

namespace Top

theorem length (h : Top heap) : 2 ≤ heap.length := by
  obtain ⟨ms, hdata, -⟩ := h.data
  exact (List.getElem?_eq_some_iff.1 hdata).1

theorem append (h : Top heap) (post : List Container) : Top (heap ++ post) := by
  have hlen := h.length
  refine ⟨?_, ?_⟩
  · rw [List.getElem?_append_left (by omega)]
    exact h.root
  · rw [List.getElem?_append_left (by omega)]
    exact h.data

theorem addElement (h : Top heap) (arr : Option ℕ) (v : Item) : Top (addElementAt heap arr v) := by
  obtain ⟨c, hroot⟩ := h.root
  obtain ⟨ms, hdata, hms⟩ := h.data
  exact ⟨⟨c, getElem?_addElementAt_obj hroot arr v⟩, ms, getElem?_addElementAt_obj hdata arr v, hms⟩

/-- A member of another object. -/
theorem setMember (h : Top heap) {obj : Option ℕ} (hobj : ∀ a, obj = some a → 2 ≤ a)
    (name : String) (v : Item) : Top (setMemberAt heap obj name v) := by
  have hne : ∀ i < 2, obj ≠ some i := by
    intro i hi heq
    have hle := hobj i heq
    omega
  refine ⟨?_, ?_⟩
  · rw [getElem?_setMemberAt_ne (hne 0 (by decide))]
    exact h.root
  · rw [getElem?_setMemberAt_ne (hne 1 (by decide))]
    exact h.data

/-- A member of the data object. -/
theorem setData (h : Top heap) (name : String) {v : Item} (hv : ∀ n, v ≠ .int n) :
    Top (setMemberAt heap (some 1) name v) := by
  obtain ⟨ms, hdata, hms⟩ := h.data
  have hlen := h.length
  refine ⟨?_, Json.setMember ms name v, ?_, ?_⟩
  · rw [getElem?_setMemberAt_ne (by decide)]
    exact h.root
  · rw [setMemberAt_eq hdata, List.getElem?_set_self (by omega)]
  · intro m hm n
    rcases Json.mem_setMember hm with rfl | hold
    · exact hv n
    · exact hms m hold n

end Top

/-- **What every call keeps**: the top of the message, and that the current object is below it. -/
structure DataKept (json : SsdsJsonCreate) : Prop where
  rootObj : json.rootObj = 0
  dataObj : json.dataObj = 1
  top : Top json.heap
  obj : ∀ a, json.currObj = .good a → 2 ≤ a

namespace DataKept

theorem init (code : Code) : DataKept (ssdsJsCrInit code) where
  rootObj := rfl
  dataObj := rfl
  top := ⟨⟨_, rfl⟩, [], rfl, by simp⟩
  obj a h := by cases h

theorem objGet (h : DataKept json) {o : Option ℕ} (ho : json.currObj.get = .ok o) :
    ∀ a, o = some a → 2 ≤ a := by
  intro a ha
  rw [ha] at ho
  exact h.obj a (Ptr.good_of_get ho)

/-- A call that leaves the cursors alone. -/
theorem withHeap (h : DataKept json) (htop : Top heap) : DataKept { json with heap := heap } :=
  ⟨h.rootObj, h.dataObj, htop, h.obj⟩

/-- A member of the data object. -/
theorem setData (h : DataKept json) (name : String) {v : Item} (hv : ∀ n, v ≠ .int n) :
    Top (setMemberAt json.heap (some json.dataObj) name v) := by
  rw [h.dataObj]
  exact h.top.setData name hv

theorem newObj (h : DataKept json) : ∀ a, Ptr.good json.heap.length = .good a → 2 ≤ a := by
  intro a ha
  cases ha
  exact h.top.length

/-- A new object becomes the current one. -/
theorem placeObj (h : DataKept json) (htop : Top heap) :
    DataKept ({ json.place heap (.obj []) with
      currObj := .good json.heap.length }.pushNode json.heap.length) :=
  ⟨h.rootObj, h.dataObj, htop.append _, h.newObj⟩

/-- A new array does. -/
theorem placeArray (h : DataKept json) (htop : Top heap) :
    DataKept ({ json.place heap (.arr []) with
      currArray := .good json.heap.length }.pushNode json.heap.length) :=
  ⟨h.rootObj, h.dataObj, htop.append _, h.obj⟩

theorem newData (h : DataKept json) (hrun : ssdsJsCrNewData json data name = .ok json') :
    DataKept json' := by
  unfold ssdsJsCrNewData at hrun
  cases data with
  | array =>
    cases hrun
    have htop := h.setData name (v := .ref json.heap.length) (by simp)
    exact h.placeArray htop
  | obj =>
    cases hrun
    have htop := h.setData name (v := .ref json.heap.length) (by simp)
    exact h.placeObj htop
  | string s =>
    cases hrun
    have hscalar : ∀ n, Item.ofString s ≠ .int n := by
      intro n
      cases s <;> simp [Item.ofString]
    exact h.withHeap (h.setData name hscalar)
  | bool b =>
    cases hrun
    exact h.withHeap (h.setData name (by simp))
  | int n =>
    obtain ⟨o, ho, hrun⟩ := bind_eq_ok.1 hrun
    cases hrun
    exact h.withHeap (h.top.setMember (h.objGet ho) name _)

theorem addArrayMember (h : DataKept json) (hrun : ssdsJsCrAddArrayMember json data = .ok json') :
    DataKept json' := by
  unfold ssdsJsCrAddArrayMember at hrun
  obtain ⟨arr, -, hrun⟩ := bind_eq_ok.1 hrun
  have htop := h.top.addElement arr
  cases data with
  | obj =>
    cases hrun
    exact h.placeObj (htop _)
  | array =>
    cases hrun
    exact h.placeArray (htop _)
  | _ =>
    cases hrun
    exact h.withHeap (htop _)

theorem addObjMember (h : DataKept json) (hrun : ssdsJsCrAddObjMember json data name = .ok json') :
    DataKept json' := by
  unfold ssdsJsCrAddObjMember at hrun
  obtain ⟨o, ho, hrun⟩ := bind_eq_ok.1 hrun
  have htop := h.top.setMember (h.objGet ho) name
  cases data with
  | obj =>
    cases hrun
    exact h.placeObj (htop _)
  | array =>
    cases hrun
    exact h.placeArray (htop _)
  | _ =>
    cases hrun
    exact h.withHeap (htop _)

theorem useArray (h : DataKept json) (name : String) : DataKept (useArray json name) := by
  unfold Rds.useArray
  simp only
  split
  · exact ⟨h.rootObj, h.dataObj, (h.setData name (by simp)).append _, h.obj⟩
  · exact ⟨h.rootObj, h.dataObj, h.top, h.obj⟩

theorem addPackage (h : DataKept json) {package : String}
    (hrun : ssdsJsCrAddPackage json package = .ok json') : DataKept json' := by
  obtain ⟨arr, -, hrun⟩ := bind_eq_ok.1 hrun
  have hused := h.useArray "req_pkgs"
  cases hrun
  exact ⟨hused.rootObj, hused.dataObj, hused.top.addElement arr _, hused.obj⟩

theorem addRepo (h : DataKept json) {url : List String} {repo : Option String} {type : ℤ}
    (hrun : ssdsJsCrAddRepo json url repo type = .ok json') : DataKept json' := by
  obtain ⟨arr, -, hrun⟩ := bind_eq_ok.1 hrun
  have hused := h.useArray "repolist"
  cases hrun
  exact ⟨hused.rootObj, hused.dataObj, (hused.top.addElement arr _).append _, hused.newObj⟩

/-- **One call.** -/
theorem run (h : DataKept json) {call : BuildCall} (hrun : call.run jsonPath json = .ok json') :
    DataKept json' := by
  cases call with
  | newData data name => exact h.newData hrun
  | addArrayMember data => exact h.addArrayMember hrun
  | addObjMember data name => exact h.addObjMember hrun
  | addPackage package => exact h.addPackage hrun
  | addRepo url name type => exact h.addRepo hrun
  | switchArray name =>
    cases hrun
    unfold ssdsJsCrSwitchArray
    split
    · exact h
    · exact ⟨h.rootObj, h.dataObj, h.top, h.obj⟩

theorem topData (h : DataKept json) : topData json = some 1 := by
  obtain ⟨c, hroot⟩ := h.top.root
  unfold Rds.topData
  rw [h.rootObj, hroot]
  rfl

end DataKept

/-- **All calls.** -/
theorem Composed.kept (h : Composed jsonPath json) : DataKept json := by
  obtain ⟨code, calls, hrun⟩ := h
  exact foldlM_invariant (fun _ _ _ hk hcall => DataKept.run hk hcall) (DataKept.init code) hrun

/-! ## New data -/

/-- **Everything but a number** goes to the data object. -/
theorem DataKept.setsData (h : DataKept json) (hdata : ∀ n, data ≠ .int n) (name : String) :
    ∃ json', ssdsJsCrNewData json data name = .ok json' ∧ SetsData json data name json' := by
  obtain ⟨ms, hms, -⟩ := h.top.data
  have hlt : 1 < json.heap.length := h.top.length
  have hstore : setMemberAt json.heap (some json.dataObj) name (data.item json.heap.length) =
      json.heap.set 1 (.obj (Json.setMember ms name (data.item json.heap.length))) := by
    rw [h.dataObj, setMemberAt_eq hms]
  have hrun : ∃ json', ssdsJsCrNewData json data name = .ok json' ∧
      json'.heap = setMemberAt json.heap (some json.dataObj) name (data.item json.heap.length) ++
        data.container.toList ∧ data.Current json.heap.length json' := by
    cases data with
    | int n => exact absurd rfl (hdata n)
    | array => exact ⟨_, rfl, rfl, rfl⟩
    | obj => exact ⟨_, rfl, rfl, rfl⟩
    | string s => exact ⟨_, rfl, (List.append_nil _).symm, trivial⟩
    | bool b => exact ⟨_, rfl, (List.append_nil _).symm, trivial⟩
  obtain ⟨json', hrun, hheap, hcurrent⟩ := hrun
  rw [hstore] at hheap
  have hfront : ∀ i < json.heap.length, json'.heap[i]? =
      (json.heap.set 1 (.obj (Json.setMember ms name (data.item json.heap.length))))[i]? := by
    intro i hi
    rw [hheap, List.getElem?_append_left (by rwa [List.length_set])]
  refine ⟨json', hrun, ⟨1, ms, Json.setMember ms name (data.item json.heap.length), h.topData, hms,
    ?_, ?_, ?_⟩, ?_, ?_, hcurrent⟩
  · rw [hfront 1 hlt, List.getElem?_set_self hlt]
  · rw [Json.lookup_setMember, if_pos rfl]
  · intro other hne
    rw [Json.lookup_setMember, if_neg hne]
  · intro i hi hne
    rw [h.topData] at hne
    rw [hfront i hi, List.getElem?_set_ne fun heq => hne (congrArg some heq)]
  · rw [hheap, List.drop_append_of_le_length (by rw [List.length_set])]
    simp

/-- A number does not get there: the data object is not the current one. -/
theorem DataKept.int_misplaced (h : DataKept json) {n : ℤ}
    (hrun : ssdsJsCrNewData json (.int n) name = .ok json') :
    ¬ SetsData json (.int n) name json' := by
  intro hsets
  obtain ⟨d, ms, ms', htop, hms, hms', hlookup, -⟩ := hsets.member
  rw [h.topData] at htop
  cases htop
  obtain ⟨o, ho, hrun⟩ := bind_eq_ok.1 hrun
  cases hrun
  have hne : o ≠ some 1 := by
    rintro rfl
    have hle := h.objGet ho 1 rfl
    omega
  rw [getElem?_setMemberAt_ne hne, hms] at hms'
  cases hms'
  obtain ⟨ms₁, hms₁, hscalar⟩ := h.top.data
  rw [hms] at hms₁
  cases hms₁
  obtain ⟨l₁, l₂, rfl, -⟩ := List.lookup_eq_some_iff.1 hlookup
  exact hscalar (name, .int n) (List.mem_append_right _ List.mem_cons_self) n rfl

/-- **New data goes under data exactly if it is not a number**, in every state of a message. -/
theorem new_data_iff (h : Composed jsonPath json) (data : JsData) (name : String) :
    (∃ json', ssdsJsCrNewData json data name = .ok json' ∧ SetsData json data name json') ↔
      ∀ n, data ≠ .int n := by
  have hkept := h.kept
  constructor
  · rintro ⟨json', hrun, hsets⟩ n rfl
    exact hkept.int_misplaced hrun hsets
  · exact fun hdata => hkept.setsData hdata name

/-- A message with an object in it, which is current. -/
def objectCalls : List BuildCall := [.newData .obj "cfg"]

theorem new_data_iff_object : ∃ json, Composed (fun _ => none) json ∧
    ((∃ json', ssdsJsCrNewData json (.bool true) "on" = .ok json' ∧
        SetsData json (.bool true) "on" json') ↔ ∀ n, JsData.bool true ≠ .int n) ∧
    ∀ n, JsData.bool true ≠ .int n := by
  have hcomposed : Composed (fun _ => none) _ := ⟨.getInstall, objectCalls, rfl⟩
  refine ⟨_, hcomposed, new_data_iff hcomposed (.bool true) "on", ?_⟩
  intro n hn
  cases hn

/-- **A number goes to the current object**: right after the start there is none, and the call
crashes, and later it is not the data object. -/
theorem new_data_fails :
    ssdsJsCrNewData (ssdsJsCrInit .getInstall) (.int 5) "n" = .error .crash ∧
    ∃ json json', Composed (fun _ => none) json ∧
      ssdsJsCrNewData json (.int 5) "n" = .ok json' ∧
      json'.heap[1]? = some (.obj [("cfg", .ref 2)]) ∧
      json'.heap[2]? = some (.obj [("n", .int 5)]) ∧ ¬ SetsData json (.int 5) "n" json' := by
  refine ⟨rfl, _, _, ⟨.getInstall, objectCalls, rfl⟩, rfl, rfl, rfl, ?_⟩
  intro hsets
  have hchanged := hsets.others 2 (by decide) (by decide)
  cases hchanged

end Rds
