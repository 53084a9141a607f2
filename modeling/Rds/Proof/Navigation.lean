import Rds.Proof.Containment

/-!
# Navigation in a message under construction

When the cursors of the builder go where what contains what says they should. A container that a
member of the same name has replaced counts as still there, as in the model.

* `NavInv.run`: calls that put new containers into that of the current node keep its chain.
* `mem_descendItems`: what a path query finds is a member of that name.
* `navigation_right`: **in a run of such calls navigation follows containment**.
-/

namespace Rds

open Relation Ancestors SsdsJsonCreate

variable {json json' : SsdsJsonCreate} {heap heap' : List Container} {x a b : ℕ}
  {kind : Container → Bool}

/-! ## The invariant -/

/-- **The invariant of navigation**: the heap is a forest, the cursors are at containers of their
kind, and the chain of the current node is the way down to its container. -/
structure NavInv (json : SsdsJsonCreate) : Prop where
  rootObj : json.rootObj = 0
  dataObj : json.dataObj = 1
  root : ∃ c, json.heap[0]? = some (.obj [("code", .int c), ("data", .ref 1)])
  data : KindAt json.heap Container.isObj 1
  forest : Forest json.heap
  obj : ∀ o, json.currObj = .good o → o ≠ 0 ∧ KindAt json.heap Container.isObj o
  arr : ∀ a, json.currArray = .good a → KindAt json.heap Container.isArr a
  placed : ∃ x, Placed json.nodes json.heap json.currNode x

namespace NavInv

theorem init (code : Code) : NavInv (ssdsJsCrInit code) where
  rootObj := rfl
  dataObj := rfl
  root := ⟨_, rfl⟩
  data := ⟨_, rfl, rfl⟩
  forest := by
    have honly : ∀ a b, Holds (ssdsJsCrInit code).heap a b → a = 0 ∧ b = 1 := by
      rintro a b ⟨c, hc, hb⟩
      match a, hc with
      | 0, hc =>
        cases hc
        simpa [Container.items] using hb
      | 1, hc =>
        cases hc
        simp [Container.items] at hb
    refine ⟨?_, ?_⟩
    · intro a b hab
      obtain ⟨rfl, rfl⟩ := honly a b hab
      exact ⟨Nat.zero_lt_one, Nat.lt_succ_self 1⟩
    · intro a b c hac hbc
      rw [(honly a c hac).1, (honly b c hbc).1]
  obj o h := by cases h
  arr a h := by cases h
  placed := ⟨1, .top rfl⟩

theorem root_holds (h : NavInv json) : Holds json.heap 0 1 := by
  obtain ⟨c, hroot⟩ := h.root
  exact ⟨_, hroot, by simp [Container.items]⟩

/-- The root is no array. -/
theorem arr_ne_root (h : NavInv json) (ha : KindAt json.heap Container.isArr a) : a ≠ 0 := by
  rintro rfl
  obtain ⟨c, hroot⟩ := h.root
  obtain ⟨c', hc', harr⟩ := ha
  rw [hroot] at hc'
  cases hc'
  cases harr

/-- **A value is stored**, and what goes with it does not hold the current element. -/
theorem store (h : NavInv json) {v : Item} {lost : Item → Prop}
    (hs : StoresAt json.heap heap' x v lost) (hx : x ≠ 0) (hv : ∀ b, v ≠ .ref b)
    (hlost : ∀ b y, lost (.ref b) → currElement json = some y →
      ¬ ReflTransGen (Holds json.heap) b y) : NavInv { json with heap := heap' } where
  rootObj := h.rootObj
  dataObj := h.dataObj
  root := by
    obtain ⟨c, hroot⟩ := h.root
    exact ⟨c, by rwa [hs.other 0 hx.symm]⟩
  data := hs.isObj h.data
  forest := h.forest.store hs hv
  obj o ho := ⟨(h.obj o ho).1, hs.isObj (h.obj o ho).2⟩
  arr a ha := hs.isArr (h.arr a ha)
  placed := by
    obtain ⟨y, hy⟩ := h.placed
    refine ⟨y, hy.mono (fun _ _ hn => hn) ?_⟩
    intro a b hab hby
    exact hs.holds hab fun _ hb => hlost b y hb hy.currElement hby

/-- **A new container** in that of the current node, and a node for it. -/
theorem push (h : NavInv json) {lost : Item → Prop}
    (hs : StoresAt json.heap heap' x (.ref json.heap.length) lost) (hx : currElement json = some x)
    (hnew : Holds heap' x json.heap.length) {c : Container} (hc : c.items = []) {obj arr : Ptr ℕ}
    (hobj : ∀ o, obj = .good o → o ≠ 0 ∧ KindAt (heap' ++ [c]) Container.isObj o)
    (harr : ∀ a, arr = .good a → KindAt (heap' ++ [c]) Container.isArr a) :
    NavInv { json with
      heap := heap' ++ [c], nodes := json.nodes ++ [⟨json.heap.length, some json.currNode⟩]
      currNode := json.nodes.length, currObj := obj, currArray := arr } := by
  obtain ⟨y, hy⟩ := h.placed
  obtain rfl : y = x := Option.some.inj (hy.currElement.symm.trans hx)
  have hlt : y < json.heap.length := by
    obtain ⟨c', hc', -⟩ := hnew
    rw [← hs.length]
    exact (List.getElem?_eq_some_iff.1 hc').1
  -- the current element is the data object or below it
  have hy0 : y ≠ 0 := by
    rintro rfl
    cases hy with
    | child _ _ hab =>
      have hbelow := (h.forest.below _ _ hab).1
      omega
  have hnodes : ∀ (j : ℕ) (n : JsNode), json.nodes[j]? = some n →
      (json.nodes ++ [(⟨json.heap.length, some json.currNode⟩ : JsNode)])[j]? = some n := by
    intro j n hn
    rw [List.getElem?_append_left (List.getElem?_eq_some_iff.1 hn).1]
    exact hn
  have hplaced : Placed (json.nodes ++ [⟨json.heap.length, some json.currNode⟩]) (heap' ++ [c])
      json.currNode y := by
    refine hy.mono hnodes ?_
    intro a b hab hby
    -- the containers on the chain are above the one that changes
    have hble := h.forest.le_of_above hby
    have hab' := (h.forest.below a b hab).1
    exact (hs.holds hab fun hay => by omega).append _
  exact {
    rootObj := h.rootObj
    dataObj := h.dataObj
    root := by
      obtain ⟨d, hroot⟩ := h.root
      refine ⟨d, ?_⟩
      rw [List.getElem?_append_left (by rw [hs.length]; omega), hs.other 0 hy0.symm]
      exact hroot
    data := (hs.isObj h.data).append _
    forest := h.forest.grow hs hlt hc
    obj := hobj
    arr := harr
    placed := ⟨json.heap.length, .child (by simp) hplaced (hnew.append _)⟩ }

/-- A new object becomes current. -/
theorem pushObj (h : NavInv json) {lost : Item → Prop}
    (hs : StoresAt json.heap heap' x (.ref json.heap.length) lost) (hx : currElement json = some x)
    (hnew : Holds heap' x json.heap.length) :
    NavInv ({ json.place heap' (.obj []) with currObj := .good json.heap.length }.pushNode
      json.heap.length) := by
  have hpos : json.heap.length ≠ 0 := by
    obtain ⟨c, hc, -⟩ := hnew
    have hlt := (List.getElem?_eq_some_iff.1 hc).1
    rw [hs.length] at hlt
    omega
  refine h.push hs hx hnew rfl ?_ ?_
  · intro o ho
    cases ho
    refine ⟨hpos, ?_⟩
    rw [← hs.length]
    exact .last rfl
  · intro a ha
    exact (hs.isArr (h.arr a ha)).append _

/-- A new array becomes current. -/
theorem pushArr (h : NavInv json) {lost : Item → Prop}
    (hs : StoresAt json.heap heap' x (.ref json.heap.length) lost) (hx : currElement json = some x)
    (hnew : Holds heap' x json.heap.length) :
    NavInv ({ json.place heap' (.arr []) with currArray := .good json.heap.length }.pushNode
      json.heap.length) := by
  refine h.push hs hx hnew rfl ?_ ?_
  · intro o ho
    exact ⟨(h.obj o ho).1, (hs.isObj (h.obj o ho).2).append _⟩
  · intro a ha
    cases ha
    rw [← hs.length]
    exact .last rfl

end NavInv

/-! ## Runs -/

/-- The calls that build a message and move in it. -/
inductive NavCall
  | newData (data : JsData) (name : String)
  | addArrayMember (data : JsData)
  | addObjMember (data : JsData) (name : String)
  | switchArray (name : String)
  | upperArray
  | upperObj

/-- A message, and its current element: the array or object last made current. -/
structure Nav where
  json : SsdsJsonCreate
  cur : ℕ

/-- What a cursor is at. -/
def cursorAt (old : ℕ) : Ptr ℕ → ℕ
  | .good a => a
  | _ => old

/-- The current element once data has been put in: a new container becomes current. -/
def Nav.curAfter (s : Nav) (data : JsData) : ℕ :=
  if data.container.isSome then s.json.heap.length else s.cur

variable {jsonPath : JsonPath} {s s' : Nav} {call : NavCall} {n : ℕ}

/-- One call, `n` turns at most in its loop. -/
def NavCall.run (jsonPath : JsonPath) (n : ℕ) (s : Nav) : NavCall → Except Halt Nav
  | newData data name => do
    let json ← ssdsJsCrNewData s.json data name
    return ⟨json, s.curAfter data⟩
  | addArrayMember data => do
    let json ← ssdsJsCrAddArrayMember s.json data
    return ⟨json, s.curAfter data⟩
  | addObjMember data name => do
    let json ← ssdsJsCrAddObjMember s.json data name
    return ⟨json, s.curAfter data⟩
  | switchArray name =>
    let (found, json) := ssdsJsCrSwitchArray jsonPath s.json name
    return ⟨json, if found then cursorAt s.cur json.currArray else s.cur⟩
  | upperArray => do
    let json ← ssdsJsCrUpperArray n s.json
    return ⟨json, cursorAt s.cur json.currArray⟩
  | upperObj => do
    let json ← ssdsJsCrUpperObj n s.json
    return ⟨json, cursorAt s.cur json.currObj⟩

/-! ## Path queries -/

/-- A name that stands for itself in a path. -/
def PlainName (name : String) : Prop :=
  name.toList ≠ [] ∧ name.toList.head? ≠ some '*' ∧ ∀ c ∈ name.toList, c ≠ '.' ∧ c ≠ '['

/-- Every member called `name` at or below the members of a node, in order, `d` steps down at most.
The query does not look inside what it finds. -/
def descendItems (heap : List Container) (name : String) : ℕ → Item → List Item
  | d + 1, .ref a =>
    match heap[a]? with
    | some (.obj ms) =>
      ms.flatMap fun m => if m.1 = name then [m.2] else descendItems heap name d m.2
    | some (.arr es) => es.flatMap (descendItems heap name d)
    | none => []
  | _, _ => []

/-- What `$.data..name` finds. -/
def searchData (name : String) (heap : List Container) : Item → List Item
  | .ref root =>
    match heap[root]? with
    | some (.obj ms) =>
      match ms.lookup "data" with
      | some data => descendItems heap name heap.length data
      | none => []
    | _ => []
  | _ => []

/-- **What json-glib documents**: a path of plain names is searched for in order. -/
def JsonPath.Documented (jsonPath : JsonPath) : Prop :=
  ∀ name, PlainName name → jsonPath ("$.data.." ++ name) = some (searchData name)

/-- **An array of that name under data.** -/
def ArrayUnder (json : SsdsJsonCreate) (name : String) (a : ℕ) : Prop :=
  KindAt json.heap Container.isArr a ∧
    ∃ o ms, ReflTransGen (Holds json.heap) json.dataObj o ∧ json.heap[o]? = some (.obj ms) ∧
      (name, .ref a) ∈ ms

/-- What is found is a member of that name, somewhere below the node. -/
theorem mem_descendItems {name : String} {v : Item} :
    ∀ {d : ℕ} {root : ℕ}, v ∈ descendItems heap name d (.ref root) →
      ∃ o ms, ReflTransGen (Holds heap) root o ∧ heap[o]? = some (.obj ms) ∧ (name, v) ∈ ms := by
  intro d
  induction d with
  | zero =>
    intro root h
    simp [descendItems] at h
  | succ d ih =>
    intro root h
    -- one step down to an item of the node, which is a container if anything is found below it
    have hdown : ∀ w, v ∈ descendItems heap name d w → (∃ c, heap[root]? = some c ∧ w ∈ c.items) →
        ∃ o ms, ReflTransGen (Holds heap) root o ∧ heap[o]? = some (.obj ms) ∧ (name, v) ∈ ms := by
      rintro w hv ⟨c, hc, hw⟩
      cases w with
      | ref b =>
        obtain ⟨o, ms, hbo, ho, hmem⟩ := ih hv
        exact ⟨o, ms, hbo.head ⟨c, hc, hw⟩, ho, hmem⟩
      | _ => cases d <;> simp [descendItems] at hv
    unfold descendItems at h
    cases hroot : heap[root]? with
    | none => simp [hroot] at h
    | some c =>
      simp only [hroot] at h
      cases c with
      | arr es =>
        obtain ⟨w, hw, hv⟩ := List.mem_flatMap.1 h
        exact hdown w hv ⟨_, hroot, hw⟩
      | obj ms =>
        obtain ⟨m, hm, hv⟩ := List.mem_flatMap.1 h
        split at hv
        · rename_i hname
          obtain rfl := List.mem_singleton.1 hv
          exact ⟨root, ms, .refl, hroot, by rwa [← hname]⟩
        · exact hdown m.2 hv ⟨_, hroot, List.mem_map_of_mem hm⟩

theorem nodeGetArray_eq_some {v : Option Item} (h : nodeGetArray heap v = some a) :
    v = some (.ref a) ∧ KindAt heap Container.isArr a := by
  unfold nodeGetArray at h
  split at h
  · split at h
    · rename_i harr
      cases h
      exact ⟨rfl, _, harr, rfl⟩
    · cases h
  · cases h

/-- The first node that is found for a name, if it is an array. -/
def firstArray (json : SsdsJsonCreate) (name : String) : Option ℕ :=
  nodeGetArray json.heap (searchData name json.heap (.ref json.rootObj))[0]?

theorem NavInv.firstArray_under (h : NavInv json) {name : String}
    (hfirst : firstArray json name = some a) : ArrayUnder json name a := by
  obtain ⟨hfound, harr⟩ := nodeGetArray_eq_some hfirst
  refine ⟨harr, ?_⟩
  obtain ⟨c, hroot⟩ := h.root
  have hmem := List.mem_of_getElem? hfound
  unfold searchData at hmem
  rw [h.rootObj] at hmem
  simp only [hroot] at hmem
  rw [h.dataObj]
  exact mem_descendItems hmem

/-! ## Calls that keep the chain -/

/-- **A member is set as the chain needs it**: a new container goes to the current element, and a
value does not replace what holds it. -/
def KeepsChain (json : SsdsJsonCreate) (obj : Ptr ℕ) (data : JsData) (name : String) : Prop :=
  if data.container.isSome then ∃ x, currElement json = some x ∧ obj = .good x
  else ∀ o b x, obj = .good o → OldMember json.heap o name (.ref b) → currElement json = some x →
    ¬ ReflTransGen (Holds json.heap) b x

/-- The object `ssds_js_cr_new_data` stores into. -/
def newDataTarget (json : SsdsJsonCreate) : JsData → Ptr ℕ
  | .int _ => json.currObj
  | _ => .good json.dataObj

/-- The current node is that of the current element, and a container of the kind is above it, below
the root. -/
def HasUpper (s : Nav) (kind : Container → Bool) : Prop :=
  currElement s.json = some s.cur ∧
    ∃ a ≠ s.json.rootObj, KindAt s.json.heap kind a ∧ TransGen (Holds s.json.heap) a s.cur

/-- **The condition on a call**, in the state before it. -/
def NavCall.Ok (jsonPath : JsonPath) (s : Nav) : NavCall → Prop
  | newData data name => KeepsChain s.json (newDataTarget s.json data) data name
  | addArrayMember data =>
    data.container.isSome → ∃ x, currElement s.json = some x ∧ s.json.currArray = .good x
  | addObjMember data name => KeepsChain s.json s.json.currObj data name
  | switchArray name =>
    PlainName name ∧ (∃ a, firstArray s.json name = some a) ∨
      jsonPath ("$.data.." ++ name) = none ∧ ∀ a, ¬ ArrayUnder s.json name a
  | upperArray => HasUpper s Container.isArr
  | upperObj => HasUpper s Container.isObj

theorem holds_new_member (hx : KindAt heap Container.isObj x) (name : String) :
    Holds (setMemberAt heap (some x) name (.ref b)) x b := by
  obtain ⟨c, hc, hobj⟩ := hx
  have hlt : x < heap.length := (List.getElem?_eq_some_iff.1 hc).1
  cases c with
  | arr es => cases hobj
  | obj ms =>
    have hlookup := Json.lookup_setMember ms name (.ref b) name
    rw [if_pos rfl] at hlookup
    obtain ⟨l₁, l₂, hsplit, -⟩ := List.lookup_eq_some_iff.1 hlookup
    refine ⟨.obj (Json.setMember ms name (.ref b)), ?_, ?_⟩
    · rw [setMemberAt_eq hc, List.getElem?_set_self hlt]
    · have hmem : (name, Item.ref b) ∈ Json.setMember ms name (.ref b) := by
        rw [hsplit]
        exact List.mem_append_right _ List.mem_cons_self
      exact List.mem_map_of_mem hmem

theorem holds_new_element (hx : KindAt heap Container.isArr x) :
    Holds (addElementAt heap (some x) (.ref b)) x b := by
  obtain ⟨c, hc, harr⟩ := hx
  have hlt : x < heap.length := (List.getElem?_eq_some_iff.1 hc).1
  cases c with
  | obj ms => cases harr
  | arr es =>
    refine ⟨.arr (es ++ [.ref b]), ?_, List.mem_append_right _ List.mem_cons_self⟩
    rw [addElementAt_eq hc, List.getElem?_set_self hlt]

namespace NavInv

/-- A member that is a value. -/
theorem setValue (h : NavInv json) {p : Ptr ℕ} (hp : ∀ o, p = .good o → o ≠ 0) {obj : Option ℕ}
    (hget : p.get = .ok obj) {data : JsData} {name : String} (hdata : data.container = none)
    (hkeep : KeepsChain json p data name) {v : Item} (hv : ∀ b, v ≠ .ref b) :
    NavInv { json with heap := setMemberAt json.heap obj name v } := by
  cases obj with
  | none => exact h
  | some o =>
    have hgood := Ptr.good_of_get hget
    unfold KeepsChain at hkeep
    rw [hdata] at hkeep
    refine h.store (storesAt_setMember json.heap o name v) (hp o hgood) hv ?_
    intro b y hlost hy
    exact hkeep o b y hgood hlost hy

/-- An element that is a value. -/
theorem addValue (h : NavInv json) {arr : Option ℕ} (hget : json.currArray.get = .ok arr) {v : Item}
    (hv : ∀ b, v ≠ .ref b) : NavInv { json with heap := addElementAt json.heap arr v } := by
  cases arr with
  | none => exact h
  | some a =>
    have hne := h.arr_ne_root (h.arr a (Ptr.good_of_get hget))
    exact h.store (storesAt_addElement json.heap a v) hne hv fun _ _ hlost => hlost.elim

/-- What a value becomes in the heap. -/
theorem ofString_ne_ref (s : Option String) (b : ℕ) : Item.ofString s ≠ .ref b := by
  cases s <;> simp [Item.ofString]

theorem newData (h : NavInv json) {data : JsData} {name : String}
    (hkeep : KeepsChain json (newDataTarget json data) data name)
    (hrun : ssdsJsCrNewData json data name = .ok json') : NavInv json' := by
  unfold ssdsJsCrNewData at hrun
  have hdata : ∀ o, Ptr.good json.dataObj = .good o → o ≠ 0 := by
    intro o ho
    cases ho
    rw [h.dataObj]
    decide
  have hobj : KindAt json.heap Container.isObj json.dataObj := by
    rw [h.dataObj]
    exact h.data
  cases data with
  | array =>
    cases hrun
    obtain ⟨x, hx, htarget⟩ := hkeep
    cases htarget
    exact h.pushArr (storesAt_setMember _ _ _ _) hx (holds_new_member hobj name)
  | obj =>
    cases hrun
    obtain ⟨x, hx, htarget⟩ := hkeep
    cases htarget
    exact h.pushObj (storesAt_setMember _ _ _ _) hx (holds_new_member hobj name)
  | string t =>
    cases hrun
    exact h.setValue hdata rfl rfl hkeep (ofString_ne_ref t)
  | bool t =>
    cases hrun
    exact h.setValue hdata rfl rfl hkeep (by simp)
  | int t =>
    obtain ⟨o, ho, hrun⟩ := bind_eq_ok.1 hrun
    cases hrun
    exact h.setValue (fun o ho => (h.obj o ho).1) ho rfl hkeep (by simp)

theorem addArrayMember (h : NavInv json) {data : JsData}
    (hkeep : data.container.isSome → ∃ x, currElement json = some x ∧ json.currArray = .good x)
    (hrun : ssdsJsCrAddArrayMember json data = .ok json') : NavInv json' := by
  unfold ssdsJsCrAddArrayMember at hrun
  obtain ⟨arr, harr, hrun⟩ := bind_eq_ok.1 hrun
  cases data with
  | obj =>
    obtain ⟨x, hx, hcurr⟩ := hkeep rfl
    rw [hcurr] at harr
    cases harr
    cases hrun
    exact h.pushObj (storesAt_addElement _ _ _) hx (holds_new_element (h.arr x hcurr))
  | array =>
    obtain ⟨x, hx, hcurr⟩ := hkeep rfl
    rw [hcurr] at harr
    cases harr
    cases hrun
    exact h.pushArr (storesAt_addElement _ _ _) hx (holds_new_element (h.arr x hcurr))
  | string t =>
    cases hrun
    exact h.addValue harr (ofString_ne_ref t)
  | bool t =>
    cases hrun
    exact h.addValue harr (by simp)
  | int t =>
    cases hrun
    exact h.addValue harr (by simp)

theorem addObjMember (h : NavInv json) {data : JsData} {name : String}
    (hkeep : KeepsChain json json.currObj data name)
    (hrun : ssdsJsCrAddObjMember json data name = .ok json') : NavInv json' := by
  unfold ssdsJsCrAddObjMember at hrun
  obtain ⟨obj, hget, hrun⟩ := bind_eq_ok.1 hrun
  have hne : ∀ o, json.currObj = .good o → o ≠ 0 := fun o ho => (h.obj o ho).1
  cases data with
  | obj =>
    obtain ⟨x, hx, hcurr⟩ := hkeep
    rw [hcurr] at hget
    cases hget
    cases hrun
    exact h.pushObj (storesAt_setMember _ _ _ _) hx (holds_new_member (h.obj x hcurr).2 name)
  | array =>
    obtain ⟨x, hx, hcurr⟩ := hkeep
    rw [hcurr] at hget
    cases hget
    cases hrun
    exact h.pushArr (storesAt_setMember _ _ _ _) hx (holds_new_member (h.obj x hcurr).2 name)
  | string t =>
    cases hrun
    exact h.setValue hne hget rfl hkeep (ofString_ne_ref t)
  | bool t =>
    cases hrun
    exact h.setValue hne hget rfl hkeep (by simp)
  | int t =>
    cases hrun
    exact h.setValue hne hget rfl hkeep (by simp)

theorem switchArray (h : NavInv json) (jsonPath : JsonPath) (name : String) :
    NavInv (ssdsJsCrSwitchArray jsonPath json name).2 := by
  unfold ssdsJsCrSwitchArray
  split
  · exact h
  · rename_i search _
    refine { h with arr := ?_ }
    intro a ha
    cases hfound : nodeGetArray json.heap (search json.heap (.ref json.rootObj))[0]? with
    | none => simp [hfound, Ptr.of] at ha
    | some b =>
      obtain rfl : b = a := by simpa [hfound, Ptr.of] using ha
      exact (nodeGetArray_eq_some hfound).2

theorem upperArray (h : NavInv json) (hrun : ssdsJsCrUpperArray n json = .ok json') :
    NavInv json' := by
  obtain ⟨x, hx⟩ := h.placed
  obtain ⟨⟨p, a⟩, hloop, hrun⟩ := bind_eq_ok.1 hrun
  obtain ⟨hp, harr⟩ := upperLoop_placed hx hloop
  cases hrun
  refine { h with placed := ⟨a, hp⟩, arr := ?_ }
  intro b hb
  cases hb
  exact harr

theorem upperObj (h : NavInv json) (hrun : ssdsJsCrUpperObj n json = .ok json') :
    NavInv json' := by
  obtain ⟨x, hx⟩ := h.placed
  obtain ⟨⟨p, a⟩, hloop, hrun⟩ := bind_eq_ok.1 hrun
  obtain ⟨hp, hobj⟩ := upperLoop_placed hx hloop
  cases hrun
  refine { h with placed := ⟨a, hp⟩, obj := ?_ }
  intro b hb
  cases hb
  refine ⟨?_, hobj⟩
  -- a chain does not come to the root
  rintro rfl
  cases hp with
  | child _ _ hab =>
    have hlt := (h.forest.below _ _ hab).1
    omega

/-- **One call that keeps the chain.** -/
theorem run (h : NavInv s.json) (hok : call.Ok jsonPath s)
    (hrun : call.run jsonPath n s = .ok s') : NavInv s'.json := by
  cases call with
  | newData data name =>
    obtain ⟨json', hcall, hrun⟩ := bind_eq_ok.1 hrun
    cases hrun
    exact h.newData hok hcall
  | addArrayMember data =>
    obtain ⟨json', hcall, hrun⟩ := bind_eq_ok.1 hrun
    cases hrun
    exact h.addArrayMember hok hcall
  | addObjMember data name =>
    obtain ⟨json', hcall, hrun⟩ := bind_eq_ok.1 hrun
    cases hrun
    exact h.addObjMember hok hcall
  | switchArray name =>
    cases hrun
    exact h.switchArray jsonPath name
  | upperArray =>
    obtain ⟨json', hcall, hrun⟩ := bind_eq_ok.1 hrun
    cases hrun
    exact h.upperArray hcall
  | upperObj =>
    obtain ⟨json', hcall, hrun⟩ := bind_eq_ok.1 hrun
    cases hrun
    exact h.upperObj hcall

end NavInv

/-! ## Navigation -/

/-- **A move up is right**: it makes the nearest container of the kind current, and changes nothing
if there is none. -/
def UpperRight (s : Nav) (kind : Container → Bool)
    (upper : ℕ → SsdsJsonCreate → Except Halt SsdsJsonCreate) (cursor : SsdsJsonCreate → Ptr ℕ) :
    Prop :=
  ∃ n json', upper n s.json = .ok json' ∧
    ((∃ a, Nearest (Holds s.json.heap) (KindAt s.json.heap kind) s.cur a ∧
        cursor json' = .good a ∧ json'.heap = s.json.heap) ∨
      (∀ a, KindAt s.json.heap kind a → ¬ TransGen (Holds s.json.heap) a s.cur) ∧
        json' = s.json)

/-- **A switch is right**: it finds an array of the name under data exactly if there is one, and
makes it current. -/
def SwitchRight (jsonPath : JsonPath) (s : Nav) (name : String) (r : Bool × SsdsJsonCreate) : Prop :=
  r = ssdsJsCrSwitchArray jsonPath s.json name ∧ (r.1 = true ↔ ∃ a, ArrayUnder s.json name a) ∧
    if r.1 then ∃ a, ArrayUnder s.json name a ∧ r.2 = { s.json with currArray := .good a }
    else r.2 = s.json

/-- **Navigation follows containment** at a call. -/
def NavCall.Right (jsonPath : JsonPath) (s : Nav) : NavCall → Prop
  | switchArray name => ∃ r, SwitchRight jsonPath s name r
  | upperArray => UpperRight s Container.isArr ssdsJsCrUpperArray SsdsJsonCreate.currArray
  | upperObj => UpperRight s Container.isObj ssdsJsCrUpperObj SsdsJsonCreate.currObj
  | _ => True

/-- **A run** of calls that all meet the condition. The data object is current at first. -/
inductive NavRun (jsonPath : JsonPath) : Nav → Prop
  | init (code : Code) : NavRun jsonPath ⟨ssdsJsCrInit code, (ssdsJsCrInit code).dataObj⟩
  | next {s : Nav} {call : NavCall} {n : ℕ} {s' : Nav} : NavRun jsonPath s →
      call.Ok jsonPath s → call.run jsonPath n s = .ok s' → NavRun jsonPath s'

theorem NavRun.inv (h : NavRun jsonPath s) : NavInv s.json := by
  induction h with
  | init code => exact .init code
  | next _ hok hrun ih => exact ih.run hok hrun

/-- The loop from the node of the current element. -/
theorem NavInv.upper_nearest (h : NavInv s.json) (hup : HasUpper s kind) :
    ∃ n p a, upperLoop s.json kind n (some s.json.currNode) = .ok (p, a) ∧
      Nearest (Holds s.json.heap) (KindAt s.json.heap kind) s.cur a := by
  obtain ⟨x, hx⟩ := h.placed
  obtain ⟨hcur, a, hroot, hkind, habove⟩ := hup
  obtain rfl : x = s.cur := Option.some.inj (hx.currElement.symm.trans hcur)
  rw [h.rootObj] at hroot
  obtain ⟨n, p, b, hloop, -, hnearest⟩ :=
    upperLoop_nearest h.forest h.root_holds hx ⟨a, hroot, hkind, habove⟩
  exact ⟨n, p, b, hloop, hnearest⟩

theorem NavInv.switchRight (h : NavInv s.json) (hpath : jsonPath.Documented) {name : String}
    (hok : (NavCall.switchArray name).Ok jsonPath s) :
    ∃ r, SwitchRight jsonPath s name r := by
  rcases hok with ⟨hplain, a, hfirst⟩ | ⟨hnone, habsent⟩
  · have hunder := h.firstArray_under hfirst
    have hswitch : ssdsJsCrSwitchArray jsonPath s.json name =
        (true, { s.json with currArray := .good a }) := by
      unfold firstArray at hfirst
      unfold ssdsJsCrSwitchArray
      simp only [hpath name hplain, hfirst]
      rfl
    refine ⟨_, hswitch.symm, ?_, a, hunder, rfl⟩
    exact ⟨fun _ => ⟨a, hunder⟩, fun _ => rfl⟩
  · have hswitch : ssdsJsCrSwitchArray jsonPath s.json name = (false, s.json) := by
      unfold ssdsJsCrSwitchArray
      rw [hnone]
    refine ⟨_, hswitch.symm, ?_, rfl⟩
    constructor
    · intro h
      cases h
    · rintro ⟨a, ha⟩
      exact absurd ha (habsent a)

/-- **Navigation follows containment**, in every state of a run whose calls put new containers into
the current element. -/
theorem navigation_right (hpath : jsonPath.Documented) (h : NavRun jsonPath s)
    (hok : call.Ok jsonPath s) : call.Right jsonPath s := by
  cases call with
  | switchArray name => exact h.inv.switchRight hpath hok
  | upperArray =>
    obtain ⟨n, p, a, hloop, hnearest⟩ := h.inv.upper_nearest hok
    exact ⟨n, _, bind_eq_ok.2 ⟨(p, a), hloop, rfl⟩, Or.inl ⟨a, hnearest, rfl, rfl⟩⟩
  | upperObj =>
    obtain ⟨n, p, a, hloop, hnearest⟩ := h.inv.upper_nearest hok
    exact ⟨n, _, bind_eq_ok.2 ⟨(p, a), hloop, rfl⟩, Or.inl ⟨a, hnearest, rfl, rfl⟩⟩
  | _ => trivial

/-! ## Messages -/

/-- json-glib on the paths of a message: it looks for what comes after `$.data..`. -/
def dataPath : JsonPath := fun path => some (searchData (String.ofList (path.toList.drop 8)))

theorem dataPath_eq (name : String) : dataPath ("$.data.." ++ name) = some (searchData name) := by
  have hlen : "$.data..".toList.length = 8 := by decide
  unfold dataPath
  rw [String.toList_append, ← hlen, List.drop_left, String.ofList_toList]

/-- An array under data, an object in it, and an array in that. -/
def nestedNav : Nav where
  json := {
    heap := [.obj [("code", .int 7), ("data", .ref 1)], .obj [("install_pkgs", .ref 2)],
      .arr [.ref 3], .obj [("install", .ref 4)], .arr []]
    nodes := [⟨0, none⟩, ⟨1, none⟩, ⟨2, some 1⟩, ⟨3, some 2⟩, ⟨4, some 3⟩]
    rootObj := 0, dataObj := 1, currNode := 4, currObj := .good 3, currArray := .good 4 }
  cur := 4

theorem nestedNav_run : NavRun dataPath nestedNav := by
  have h0 : NavRun dataPath _ := .init .getInstall
  have h1 := @NavRun.next dataPath _ (.newData .array "install_pkgs") 0 _ h0 ⟨1, rfl, rfl⟩ rfl
  have h2 := @NavRun.next dataPath _ (.addArrayMember .obj) 0 _ h1 (fun _ => ⟨2, rfl, rfl⟩) rfl
  exact @NavRun.next dataPath _ (.addObjMember .array "install") 0 _ h2 ⟨3, rfl, rfl⟩ rfl

theorem navigation_right_nested :
    dataPath.Documented ∧ NavRun dataPath nestedNav ∧ NavCall.upperArray.Ok dataPath nestedNav ∧
      NavCall.upperArray.Right dataPath nestedNav := by
  have hpath : dataPath.Documented := fun name _ => dataPath_eq name
  have hok : NavCall.upperArray.Ok dataPath nestedNav := by
    have habove : TransGen (Holds nestedNav.json.heap) 2 3 :=
      .single ⟨_, rfl, List.mem_cons_self⟩
    have hcur : Holds nestedNav.json.heap 3 4 := ⟨_, rfl, List.mem_cons_self⟩
    exact ⟨rfl, 2, by decide, ⟨_, rfl, rfl⟩, habove.tail hcur⟩
  exact ⟨hpath, nestedNav_run, hok, navigation_right hpath nestedNav_run hok⟩

/-- **Where navigation goes wrong**: with no array above, the way up has no end; above the second of
two arrays under data it finds the first; and a switch to an array that is not there says that it
is. -/
theorem navigation_fails :
    ¬ UpperRight ⟨ssdsJsCrInit .getInstall, 1⟩ Container.isArr ssdsJsCrUpperArray
      SsdsJsonCreate.currArray ∧
    (∃ json₁ json₂ json₃, ssdsJsCrNewData (ssdsJsCrInit .getInstall) .array "a" = .ok json₁ ∧
      ssdsJsCrNewData json₁ .array "b" = .ok json₂ ∧
      json₂.heap[1]? = some (.obj [("a", .ref 2), ("b", .ref 3)]) ∧ json₂.currArray = .good 3 ∧
      ssdsJsCrUpperArray 1 json₂ = .ok json₃ ∧ json₃.currArray = .good 2) ∧
    ∃ json, ssdsJsCrSwitchArray dataPath (ssdsJsCrInit .getInstall) "a" = (true, json) ∧
      json.currArray = .null := by
  refine ⟨?_, ⟨_, _, _, rfl, rfl, rfl, rfl, rfl, rfl⟩, ?_⟩
  · rintro ⟨n, json', hrun, -⟩
    obtain ⟨r, hloop, -⟩ := bind_eq_ok.1 hrun
    cases n with
    | zero => cases hloop
    | succ n =>
      have hnull : upperLoop (ssdsJsCrInit .getInstall) Container.isArr n none = .ok r := hloop
      rw [upperLoop_null] at hnull
      cases hnull
  · unfold ssdsJsCrSwitchArray
    rw [dataPath_eq]
    exact ⟨_, rfl, rfl⟩

end Rds
