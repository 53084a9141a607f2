import Rds.Spec.JsonCreate

/-!
# What an answer under construction holds

The heap of an answer is its root object, its data object and one block for each array: the
array with the references to its packages, and behind it the packages (`Built`).

* `Built.insertArray`: one turn of `ssds_js_cr_pkgs_insert` adds a block.
* `Built.pkgsInsert`: what `ssds_js_cr_pkgs_insert` makes of a solved goal.
* `Built.toString`: the document printed from such a heap.
* `Rooted.toString`: a message keeps its code whatever is built below the root.
-/

namespace Rds

open SsdsJsonCreate

variable {json : SsdsJsonCreate} {c : Code}

/-- The object of one package, as it is built. -/
def pkgObj (p : HyPackage) : Container :=
  .obj [("pkg_name", .str p.name), ("pkg_loc", .ofString p.location),
    ("base_url", .ofString p.baseurl), ("metalink", .str p.reponame)]

/-- References to `n` containers in a row. -/
def refs (addr n : ℕ) : List Item := (List.range' addr n).map .ref

theorem refs_succ (addr n : ℕ) : refs addr (n + 1) = .ref addr :: refs (addr + 1) n := by
  simp [refs, List.range'_succ]

/-! ## Storing in the heap -/

theorem addElementAt_length (heap : List Container) (arr : Option ℕ) (v : Item) :
    (addElementAt heap arr v).length = heap.length := by
  cases arr <;> simp [addElementAt]

/-- Changing an entry that is there is setting it. -/
theorem modify_eq_set_of_getElem? {α : Type} {l : List α} {i : ℕ} {x : α} (h : l[i]? = some x)
    (f : α → α) : l.modify i f = l.set i (f x) := by
  have hlt : i < l.length := (List.getElem?_eq_some_iff.1 h).1
  apply List.ext_getElem?
  intro j
  rw [List.getElem?_modify, List.getElem?_set]
  by_cases hij : i = j
  · subst hij
    have hx : l[i] = x := (List.getElem?_eq_some_iff.1 h).2
    simp [hlt, hx]
  · simp [hij]

theorem addElementAt_eq {heap : List Container} {a : ℕ} {es : List Item}
    (h : heap[a]? = some (.arr es)) (v : Item) :
    addElementAt heap (some a) v = heap.set a (.arr (es ++ [v])) := by
  unfold addElementAt
  exact modify_eq_set_of_getElem? h _

theorem setMemberAt_eq {heap : List Container} {a : ℕ} {ms : List (String × Item)}
    (h : heap[a]? = some (.obj ms)) (name : String) (v : Item) :
    setMemberAt heap (some a) name v = heap.set a (.obj (Json.setMember ms name v)) := by
  unfold setMemberAt
  exact modify_eq_set_of_getElem? h _

/-- A member of the newest container. -/
theorem setMemberAt_last {heap : List Container} {n : ℕ} (hn : heap.length = n)
    (ms : List (String × Item)) (name : String) (v : Item) :
    setMemberAt (heap ++ [.obj ms]) (some n) name v =
      heap ++ [.obj (Json.setMember ms name v)] := by
  subst hn
  have hlast : (heap ++ [.obj ms])[heap.length]? = some (.obj ms) := by simp
  rw [setMemberAt_eq hlast, List.set_append_right _ _ (Nat.le_refl _)]
  simp

/-! ## Packages -/

/-- **One package**: its object comes last, the current array gets a reference to it. -/
theorem insertPkg_eq {a : ℕ} {es : List Item} (hc : json.currArray = .good a)
    (ha : json.heap[a]? = some (.arr es)) (p : HyPackage) :
    ∃ json', insertPkg json p = .ok json' ∧
      json'.heap = json.heap.set a (.arr (es ++ [.ref json.heap.length])) ++ [pkgObj p] ∧
      json'.currArray = .good a ∧ json'.rootObj = json.rootObj ∧ json'.dataObj = json.dataObj := by
  have hlen : (json.heap.set a (.arr (es ++ [.ref json.heap.length]))).length = json.heap.length :=
    List.length_set
  unfold insertPkg ssdsJsCrAddArrayMember
  simp only [hc, Ptr.get, bind, Except.bind, pure, Except.pure, addElementAt_eq ha, place, pushNode]
  unfold ssdsJsCrAddObjMember
  cases hb : p.baseurl with
  | none =>
    simp only [Ptr.get, bind, Except.bind, pure, Except.pure]
    refine ⟨_, rfl, ?_, rfl, rfl, rfl⟩
    simp only [setMemberAt_last hlen]
    simp [pkgObj, Json.setMember, Item.ofString, hb]
  | some url =>
    simp only [Ptr.get, bind, Except.bind, pure, Except.pure]
    refine ⟨_, rfl, ?_, rfl, rfl, rfl⟩
    simp only [setMemberAt_last hlen]
    simp [pkgObj, Json.setMember, Item.ofString, hb]

/-- **A list of packages**, in the order of the loop. -/
theorem foldlM_insertPkg_eq (pkgs : List HyPackage) :
    ∀ {json : SsdsJsonCreate} {a : ℕ} {es : List Item}, json.currArray = .good a →
      json.heap[a]? = some (.arr es) →
      ∃ json', pkgs.foldlM insertPkg json = .ok json' ∧
        json'.heap = json.heap.set a (.arr (es ++ refs json.heap.length pkgs.length)) ++
          pkgs.map pkgObj ∧
        json'.rootObj = json.rootObj ∧ json'.dataObj = json.dataObj := by
  induction pkgs with
  | nil =>
    intro json a es _ ha
    refine ⟨json, rfl, ?_, rfl, rfl⟩
    have hlt : a < json.heap.length := (List.getElem?_eq_some_iff.1 ha).1
    have hself : json.heap[a] = .arr es := (List.getElem?_eq_some_iff.1 ha).2
    simp [refs, ← hself]
  | cons p pkgs ih =>
    intro json a es hc ha
    have hlt : a < json.heap.length := (List.getElem?_eq_some_iff.1 ha).1
    -- each package is put behind the ones before it, so the references are in a row
    obtain ⟨json₁, h₁, hheap, hc₁, hroot, hdata⟩ := insertPkg_eq hc ha p
    have ha₁ : json₁.heap[a]? = some (.arr (es ++ [.ref json.heap.length])) := by
      rw [hheap, List.getElem?_append_left (by simpa using hlt)]
      simp [hlt]
    obtain ⟨json', h', hheap', hroot', hdata'⟩ := ih hc₁ ha₁
    refine ⟨json', ?_, ?_, hroot'.trans hroot, hdata'.trans hdata⟩
    · rw [List.foldlM_cons, h₁]
      exact h'
    · have hlen : json₁.heap.length = json.heap.length + 1 := by rw [hheap]; simp
      rw [hheap', hlen, hheap, List.set_append_left _ _ (by simpa using hlt), List.set_set]
      simp [refs_succ]

/-! ## Arrays -/

/-- The block of an array whose first container is at `addr`. -/
def block (addr : ℕ) (pkgs : List HyPackage) : List Container :=
  .arr (refs (addr + 1) pkgs.length) :: pkgs.reverse.map pkgObj

/-- The blocks of some named arrays, one after the other. -/
def blocks : ℕ → List (String × List HyPackage) → List Container
  | _, [] => []
  | addr, l :: lists => block addr l.2 ++ blocks (addr + 1 + l.2.length) lists

/-- The members of the data object for these arrays. -/
def blockMembers : ℕ → List (String × List HyPackage) → List (String × Item)
  | _, [] => []
  | addr, l :: lists => (l.1, .ref addr) :: blockMembers (addr + 1 + l.2.length) lists

@[simp] theorem block_length (addr : ℕ) (pkgs : List HyPackage) :
    (block addr pkgs).length = pkgs.length + 1 := by simp [block]

/-- The address behind the blocks, counted from the second one on. -/
theorem next_address (addr : ℕ) (l : String × List HyPackage)
    (lists : List (String × List HyPackage)) :
    addr + 1 + l.2.length + (blocks (addr + 1 + l.2.length) lists).length =
      addr + (blocks addr (l :: lists)).length := by
  rw [blocks, List.length_append, block_length]
  omega

theorem blocks_concat (addr : ℕ) (lists : List (String × List HyPackage))
    (l : String × List HyPackage) :
    blocks addr (lists ++ [l]) = blocks addr lists ++ block (addr + (blocks addr lists).length) l.2 := by
  induction lists generalizing addr with
  | nil => simp [blocks]
  | cons l' lists ih =>
    rw [List.cons_append, blocks, ih, next_address, blocks, List.append_assoc]

theorem blockMembers_concat (addr : ℕ) (lists : List (String × List HyPackage))
    (l : String × List HyPackage) : blockMembers addr (lists ++ [l]) =
      blockMembers addr lists ++ [(l.1, .ref (addr + (blocks addr lists).length))] := by
  induction lists generalizing addr with
  | nil => simp [blockMembers, blocks]
  | cons l' lists ih =>
    rw [List.cons_append, blockMembers, ih, next_address, blockMembers]
    rfl

theorem mem_blockMembers {addr : ℕ} {lists : List (String × List HyPackage)} {m : String × Item}
    (h : m ∈ blockMembers addr lists) : ∃ l ∈ lists, l.1 = m.1 := by
  induction lists generalizing addr with
  | nil => cases h
  | cons l lists ih =>
    rw [blockMembers, List.mem_cons] at h
    rcases h with rfl | h
    · exact ⟨l, List.mem_cons_self, rfl⟩
    · obtain ⟨l', hl', hname⟩ := ih h
      exact ⟨l', List.mem_cons_of_mem _ hl', hname⟩

/-- **An answer with these arrays**, in this order. -/
structure Built (json : SsdsJsonCreate) (c : Code) (lists : List (String × List HyPackage)) : Prop where
  heap : json.heap = .obj [("code", .int c.num), ("data", .ref 1)] ::
    .obj (blockMembers 2 lists) :: blocks 2 lists
  rootObj : json.rootObj = 0
  dataObj : json.dataObj = 1

theorem Built.init (c : Code) : Built (ssdsJsCrInit c) c [] := ⟨rfl, rfl, rfl⟩

/-- A new array is made for a name that is not there yet. -/
theorem newArray_eq {lists : List (String × List HyPackage)} (h : Built json c lists) {name : String}
    (hname : ∀ l ∈ lists, l.1 ≠ name) :
    ∃ json', ssdsJsCrNewData json .array name = .ok json' ∧
      json'.heap = (json.heap.set 1 (.obj (blockMembers 2 lists ++ [(name, .ref json.heap.length)]))) ++
        [.arr []] ∧
      json'.currArray = .good json.heap.length ∧ json'.rootObj = 0 ∧ json'.dataObj = 1 := by
  have hdata : json.heap[1]? = some (.obj (blockMembers 2 lists)) := by rw [h.heap]; rfl
  -- the name is new, so the member goes to the end of the data object
  have hnew : Json.setMember (blockMembers 2 lists) name (.ref json.heap.length) =
      blockMembers 2 lists ++ [(name, .ref json.heap.length)] := by
    refine Json.setMember_new _ fun m hm => ?_
    obtain ⟨l, hl, hlm⟩ := mem_blockMembers hm
    rw [← hlm]; exact hname l hl
  unfold ssdsJsCrNewData
  simp only [pure, Except.pure, place, pushNode, h.dataObj]
  refine ⟨_, rfl, ?_, rfl, h.rootObj, rfl⟩
  rw [setMemberAt_eq hdata, hnew]

/-- **One turn** of `ssds_js_cr_pkgs_insert` adds an array. -/
theorem Built.insertArray {lists : List (String × List HyPackage)} (h : Built json c lists)
    {name : String} (hname : ∀ l ∈ lists, l.1 ≠ name) (pkgs : List HyPackage) :
    ∃ json', insertArray json name pkgs = .ok json' ∧ Built json' c (lists ++ [(name, pkgs)]) := by
  have hmember : json.dataMember name = none := by
    unfold dataMember
    rw [h.dataObj, h.heap]
    simp only [List.getElem?_cons_succ, List.getElem?_cons_zero]
    rw [List.lookup_eq_none_iff]
    intro m hm
    obtain ⟨l, hl, hlm⟩ := mem_blockMembers hm
    have hne : name ≠ m.1 := by rw [← hlm]; exact (hname l hl).symm
    simpa using hne
  -- the array comes last in the heap, its packages behind it
  obtain ⟨json₁, h₁, hheap₁, hcurr, hroot, hdata⟩ := newArray_eq h hname
  have hlen : (json.heap.set 1 (.obj (blockMembers 2 lists ++ [(name, .ref json.heap.length)]))).length =
      json.heap.length := List.length_set
  have harr : json₁.heap[json.heap.length]? = some (.arr []) := by
    rw [hheap₁, List.getElem?_append_right (Nat.le_of_eq hlen)]
    simp
  obtain ⟨json', h', hheap', hroot', hdata'⟩ := foldlM_insertPkg_eq pkgs.reverse hcurr harr
  refine ⟨json', ?_, ?_, hroot'.trans hroot, hdata'.trans hdata⟩
  · unfold Rds.insertArray
    rw [hmember]
    simp only [Option.isNone_none, if_true, bind, Except.bind, h₁]
    exact h'
  · have hn : json.heap.length = 2 + (blocks 2 lists).length := by
      rw [h.heap]; simp only [List.length_cons]; omega
    have hlen₁ : json₁.heap.length = json.heap.length + 1 := by rw [hheap₁]; simp
    rw [hheap', hlen₁, hheap₁, List.set_append_right _ _ (Nat.le_of_eq hlen), hlen, h.heap,
      blocks_concat, blockMembers_concat]
    rw [h.heap] at hn
    simp [hn, block]

/-- The code of an answer can be changed at any time. -/
theorem Built.insertCode {lists : List (String × List HyPackage)} (h : Built json c lists)
    (d : Code) : Built (ssdsJsCrInsertCode json d) d lists := by
  have hroot : json.heap[0]? = some (.obj [("code", .int c.num), ("data", .ref 1)]) := by
    rw [h.heap]; rfl
  refine ⟨?_, h.rootObj, h.dataObj⟩
  unfold ssdsJsCrInsertCode
  simp only [h.rootObj]
  rw [setMemberAt_eq hroot, h.heap]
  rfl

/-- The arrays of an answer. `unneeded` is not among them: the loop ends before it. -/
def answerLists (goal : HySolution) : List (String × List HyPackage) :=
  [("install", goal.installs), ("upgrade", goal.upgrades), ("erase", goal.erasures),
    ("obsolete", goal.obsoleted)]

/-- **The answer to a solved goal.** -/
theorem Built.pkgsInsert {json : SsdsJsonCreate} {c : Code} (h : Built json c []) (goal : HySolution) :
    ∃ json', ssdsJsCrPkgsInsert json goal = .ok json' ∧ Built json' c (answerLists goal) := by
  obtain ⟨json₁, h₁, hb₁⟩ := @Built.insertArray _ _ _ h "install" (by simp) goal.installs
  obtain ⟨json₂, h₂, hb₂⟩ := @Built.insertArray _ _ _ hb₁ "upgrade" (by simp) goal.upgrades
  obtain ⟨json₃, h₃, hb₃⟩ := @Built.insertArray _ _ _ hb₂ "erase" (by simp) goal.erasures
  obtain ⟨json₄, h₄, hb₄⟩ := @Built.insertArray _ _ _ hb₃ "obsolete" (by simp) goal.obsoleted
  refine ⟨json₄, ?_, hb₄⟩
  unfold ssdsJsCrPkgsInsert ssdsJsArrayStr goalLists jsArrObsolete
  simp only [List.zip_cons_cons, List.take_succ_cons, List.take_zero, List.foldlM_cons,
    List.foldlM_nil, bind, Except.bind, h₁, h₂, h₃, h₄, Nat.reduceAdd, pure, Except.pure]

/-! ## The document -/

/-- A string member, JSON null for `NULL`. -/
def jsonOfString : Option String → Json
  | none => .null
  | some s => .str s

/-- The object of one package in a document. -/
def pkgJson (p : HyPackage) : Json :=
  .obj [("pkg_name", .str p.name), ("pkg_loc", jsonOfString p.location),
    ("base_url", jsonOfString p.baseurl), ("metalink", .str p.reponame)]

/-- The document of an answer: each array holds its packages from the last to the first. -/
def answerDoc (c : Code) (lists : List (String × List HyPackage)) : Json :=
  .obj [("code", .int c.num),
    ("data", .obj (lists.map fun l => (l.1, .arr (l.2.reverse.map pkgJson))))]

theorem render_ofString (heap : List Container) (d : ℕ) (s : Option String) :
    render heap d (.ofString s) = jsonOfString s := by
  cases s <;> simp [Item.ofString, render, jsonOfString]

theorem render_pkgObj {heap : List Container} {a : ℕ} {p : HyPackage}
    (h : heap[a]? = some (pkgObj p)) (d : ℕ) : render heap (d + 1) (.ref a) = pkgJson p := by
  rw [render, h]
  simp [pkgObj, pkgJson, render_ofString, render]

theorem render_refs (d : ℕ) (pkgs : List HyPackage) (post : List Container) :
    ∀ pre : List Container, (refs pre.length pkgs.length).map
      (render (pre ++ pkgs.map pkgObj ++ post) (d + 1)) = pkgs.map pkgJson := by
  induction pkgs with
  | nil => intro pre; rfl
  | cons p pkgs ih =>
    intro pre
    have hp : (pre ++ (p :: pkgs).map pkgObj ++ post)[pre.length]? = some (pkgObj p) := by simp
    -- the first package becomes part of what is in front
    have hrest := ih (pre ++ [pkgObj p])
    have hheap : pre ++ [pkgObj p] ++ pkgs.map pkgObj ++ post =
        pre ++ (p :: pkgs).map pkgObj ++ post := by simp
    rw [hheap, List.length_append, List.length_singleton] at hrest
    rw [List.length_cons, refs_succ, List.map_cons, render_pkgObj hp, hrest, List.map_cons]

theorem render_blocks (d : ℕ) (lists : List (String × List HyPackage)) :
    ∀ pre : List Container, (blockMembers pre.length lists).map
      (fun m => (m.1, render (pre ++ blocks pre.length lists) (d + 2) m.2)) =
        lists.map fun l => (l.1, .arr (l.2.reverse.map pkgJson)) := by
  induction lists with
  | nil => intro pre; rfl
  | cons l lists ih =>
    intro pre
    set rest := blocks (pre.length + 1 + l.2.length) lists with hrest
    have hheap : pre ++ blocks pre.length (l :: lists) =
        (pre ++ [.arr (refs (pre.length + 1) l.2.length)]) ++ l.2.reverse.map pkgObj ++ rest := by
      rw [blocks, block, hrest]; simp
    have harr : (pre ++ blocks pre.length (l :: lists))[pre.length]? =
        some (.arr (refs (pre.length + 1) l.2.length)) := by rw [hheap]; simp
    have hrefs := render_refs d l.2.reverse rest (pre ++ [.arr (refs (pre.length + 1) l.2.length)])
    rw [← hheap, List.length_append, List.length_singleton, List.length_reverse] at hrefs
    have htail := ih (pre ++ block pre.length l.2)
    have hlen : (pre ++ block pre.length l.2).length = pre.length + 1 + l.2.length := by
      rw [List.length_append, block_length]; omega
    have hheap' : pre ++ block pre.length l.2 ++ rest = pre ++ blocks pre.length (l :: lists) := by
      rw [blocks, hrest]; simp
    rw [hlen, ← hrest, hheap'] at htail
    rw [blockMembers, List.map_cons, List.map_cons, htail]
    congr 1
    rw [render, harr]
    simp only [hrefs]

/-- **What is printed.** -/
theorem Built.toString {lists : List (String × List HyPackage)} (h : Built json c lists)
    (hlists : 2 ≤ lists.length) : ssdsJsCrToString json = answerDoc c lists := by
  have hblocks : ∀ addr, lists.length ≤ (blocks addr lists).length := by
    clear h hlists
    induction lists with
    | nil => intro addr; exact Nat.le_refl _
    | cons l lists ih =>
      intro addr
      have := ih (addr + 1 + l.2.length)
      rw [blocks, List.length_append, block_length, List.length_cons]
      omega
  -- deep enough for root, data, array and package
  obtain ⟨d, hd⟩ : ∃ d, json.heap.length = d + 4 := by
    have := hblocks 2
    refine ⟨json.heap.length - 4, ?_⟩
    rw [h.heap]; simp only [List.length_cons]; omega
  have hroot : json.heap[0]? = some (.obj [("code", .int c.num), ("data", .ref 1)]) := by
    rw [h.heap]; rfl
  have hdata : json.heap[1]? = some (.obj (blockMembers 2 lists)) := by rw [h.heap]; rfl
  have hmembers := render_blocks d lists
    [.obj [("code", .int c.num), ("data", .ref 1)], .obj (blockMembers 2 lists)]
  have hheap : [.obj [("code", .int c.num), ("data", .ref 1)], .obj (blockMembers 2 lists)] ++
      blocks 2 lists = json.heap := by rw [h.heap]; rfl
  simp only [List.length_cons, List.length_nil, Nat.zero_add, Nat.reduceAdd] at hmembers
  rw [hheap] at hmembers
  unfold ssdsJsCrToString answerDoc
  rw [h.rootObj, hd, render, hroot]
  simp only [List.map_cons, List.map_nil, render, hdata, hmembers]

/-! ## The code of a message -/

/-- **The root object comes first**, and its first member is the code. -/
structure Rooted (json : SsdsJsonCreate) (c : Code) : Prop where
  rootObj : json.rootObj = 0
  dataObj : json.dataObj = 1
  root : ∃ ms, json.heap[0]? = some (.obj (("code", .int c.num) :: ms))

theorem Rooted.init (c : Code) : Rooted (ssdsJsCrInit c) c := ⟨rfl, rfl, _, rfl⟩

theorem Built.rooted {lists : List (String × List HyPackage)} (h : Built json c lists) :
    Rooted json c :=
  ⟨h.rootObj, h.dataObj, _, by rw [h.heap]; rfl⟩

/-- What is stored elsewhere leaves the root alone. -/
theorem getElem?_zero_modify {α : Type} (l : List α) {i : ℕ} (hi : i ≠ 0) (f : α → α) :
    (l.modify i f)[0]? = l[0]? := by
  rw [List.getElem?_modify]
  simp [hi]

theorem Rooted.setMessage (h : Rooted json c) (msg : String) :
    Rooted (ssdsJsCrSetMessage json msg) c := by
  obtain ⟨ms, hroot⟩ := h.root
  refine ⟨h.rootObj, h.dataObj, ms, ?_⟩
  unfold ssdsJsCrSetMessage setMemberAt
  simp only [h.dataObj]
  rw [getElem?_zero_modify _ (by decide)]
  exact hroot

theorem Rooted.insertCode (h : Rooted json c) (d : Code) :
    Rooted (ssdsJsCrInsertCode json d) d := by
  obtain ⟨ms, hroot⟩ := h.root
  refine ⟨h.rootObj, h.dataObj, ms, ?_⟩
  have hlt : 0 < json.heap.length := (List.getElem?_eq_some_iff.1 hroot).1
  unfold ssdsJsCrInsertCode
  simp only [h.rootObj]
  rw [setMemberAt_eq hroot]
  simp [Json.setMember, hlt]

/-- **The code is the first member** of what is printed. -/
theorem Rooted.toString (h : Rooted json c) :
    ∃ ms, ssdsJsCrToString json = .obj (("code", .int c.num) :: ms) := by
  obtain ⟨ms, hroot⟩ := h.root
  have hlt : 0 < json.heap.length := (List.getElem?_eq_some_iff.1 hroot).1
  obtain ⟨d, hd⟩ : ∃ d, json.heap.length = d + 1 := ⟨json.heap.length - 1, by omega⟩
  refine ⟨ms.map fun m => (m.1, render json.heap d m.2), ?_⟩
  unfold ssdsJsCrToString
  rw [h.rootObj, hd, render, hroot]
  simp only [List.map_cons, render]

/-! ## Requests -/

/-- What the steps of a fold preserve. -/
theorem foldlM_invariant {ε α β : Type} {P : β → Prop} {f : β → α → Except ε β}
    (hf : ∀ b a b', P b → f b a = .ok b' → P b') {l : List α} :
    ∀ {b b' : β}, P b → l.foldlM f b = .ok b' → P b' := by
  induction l with
  | nil =>
    intro b b' hb h
    cases h
    exact hb
  | cons a l ih =>
    intro b b' hb h
    rw [List.foldlM_cons] at h
    obtain ⟨b₁, h₁, h⟩ := bind_eq_ok.1 h
    exact ih (hf b a b₁ hb h₁) h

/-- A list in the data object is not the root. -/
theorem Rooted.dataArray_ne (h : Rooted json c) {name : String} {a : ℕ}
    (ha : json.dataArray name = some a) : a ≠ 0 := by
  rintro rfl
  obtain ⟨ms, hroot⟩ := h.root
  unfold dataArray at ha
  split at ha
  · rename_i b _
    split at ha
    · rename_i hb
      cases ha
      rw [hroot] at hb
      cases hb
    · cases ha
  · cases ha

theorem Rooted.useArray (h : Rooted json c) (name : String) :
    Rooted (useArray json name) c ∧
      ∀ a, (Rds.useArray json name).currArray.get = .ok (some a) → a ≠ 0 := by
  obtain ⟨ms, hroot⟩ := h.root
  have hlt : 0 < json.heap.length := (List.getElem?_eq_some_iff.1 hroot).1
  unfold Rds.useArray
  split
  · refine ⟨⟨h.rootObj, h.dataObj, ms, ?_⟩, ?_⟩
    · simp only [place, h.dataObj, setMemberAt]
      rw [List.getElem?_append_left (by simpa using hlt), getElem?_zero_modify _ (by decide)]
      exact hroot
    · intro a ha
      cases ha
      omega
  · refine ⟨⟨h.rootObj, h.dataObj, ms, hroot⟩, ?_⟩
    intro a ha
    rw [Ptr.get_of] at ha
    exact h.dataArray_ne (Except.ok.inj ha)

/-- An element in an array other than the root, with containers put behind. -/
theorem getElem?_zero_addElementAt {heap : List Container} {arr : Option ℕ}
    (harr : ∀ a, arr = some a → a ≠ 0) (hheap : 0 < heap.length) (v : Item)
    (post : List Container) : (addElementAt heap arr v ++ post)[0]? = heap[0]? := by
  rw [List.getElem?_append_left (by rw [addElementAt_length]; exact hheap)]
  cases arr with
  | none => rfl
  | some a => exact getElem?_zero_modify _ (harr a rfl) _

/-- The root object does not see an element in an array. -/
theorem Rooted.addElement (h : Rooted json c) {arr : Option ℕ} (harr : ∀ a, arr = some a → a ≠ 0)
    (v : Item) (post : List Container) :
    ∃ ms, (addElementAt json.heap arr v ++ post)[0]? = some (.obj (("code", .int c.num) :: ms)) := by
  obtain ⟨ms, hroot⟩ := h.root
  have hlt : 0 < json.heap.length := (List.getElem?_eq_some_iff.1 hroot).1
  exact ⟨ms, (getElem?_zero_addElementAt harr hlt v post).trans hroot⟩

theorem Rooted.addPackage (h : Rooted json c) {pkg : String} {json' : SsdsJsonCreate}
    (hadd : ssdsJsCrAddPackage json pkg = .ok json') : Rooted json' c := by
  obtain ⟨hu, hne⟩ := h.useArray "req_pkgs"
  unfold ssdsJsCrAddPackage at hadd
  obtain ⟨arr, harr, hadd⟩ := bind_eq_ok.1 hadd
  cases hadd
  have hpos : ∀ a, arr = some a → a ≠ 0 := fun a ha => hne a (by rw [harr, ha])
  have hroot := hu.addElement hpos (.str pkg) []
  rw [List.append_nil] at hroot
  exact ⟨hu.rootObj, hu.dataObj, hroot⟩

theorem Rooted.addRepo (h : Rooted json c) {url : List String} {name : Option String} {type : ℤ}
    {json' : SsdsJsonCreate} (hadd : ssdsJsCrAddRepo json url name type = .ok json') :
    Rooted json' c := by
  obtain ⟨hu, hne⟩ := h.useArray "repolist"
  unfold ssdsJsCrAddRepo at hadd
  obtain ⟨arr, harr, hadd⟩ := bind_eq_ok.1 hadd
  cases hadd
  have hpos : ∀ a, arr = some a → a ≠ 0 := fun a ha => hne a (by rw [harr, ha])
  exact ⟨hu.rootObj, hu.dataObj, hu.addElement hpos _ _⟩

end Rds
