import Rds.Proof.Decode

/-!
# The array of the requested names

The server allocates one slot more than `ssds_js_rd_get_count` counts, lets
`ssds_js_rd_get_packages` fill them, and hands the array on as one that ends with `NULL`.

* `getPackages_eq_stores`: the array is what the stores of the decoder make of it.
* `namesStored_iff`: **when the array is as it should be**. The slot behind the last name is
  skipped, and the one behind that is beyond the array unless another array was counted.
-/

namespace Rds

variable {array : Option JsonArray} {json : SsdsJsonRead}

/-- What some stores make of an array. -/
def storeAll (pkgs : ℕ → Ptr String) (stores : List (ℕ × Ptr String)) : ℕ → Ptr String :=
  stores.foldl (fun pkgs w => Function.update pkgs w.1 w.2) pkgs

theorem packagesStores_eq (array : Option JsonArray) (n : ℕ) : ∀ (i : ℕ) (pkgs : ℕ → Ptr String),
    (packagesStores array n i).map (storeAll pkgs) =
      (getPackagesLoop array n i pkgs).map fun pkgs => Function.update pkgs (i + n + 1) .null := by
  induction n with
  | zero =>
    intro i pkgs
    rfl
  | succ n ih =>
    intro i pkgs
    rw [packagesStores, getPackagesLoop]
    cases jsonArrayGetStringElement array i with
    | none => rfl
    | some word =>
      have hnext := ih (i + 1) (Function.update pkgs i (.good word))
      have hlast : i + (n + 1) + 1 = i + 1 + n + 1 := by omega
      simp only
      rw [hlast, ← hnext]
      cases packagesStores array n (i + 1) <;> rfl

/-- **The array is made by the stores**, and by nothing else. -/
theorem getPackages_eq_stores (pkgs : ℕ → Ptr String) (json : SsdsJsonRead) :
    ssdsJsRdGetPackages pkgs json = (ssdsJsRdGetPackagesStores json).map (storeAll pkgs) := by
  unfold ssdsJsRdGetPackages ssdsJsRdGetPackagesStores
  cases json.dataObj.get with
  | error e => rfl
  | ok obj =>
    have hstores := packagesStores_eq (jsonObjectGetArrayMember obj "req_pkgs")
      (jsonArrayGetLength (jsonObjectGetArrayMember obj "req_pkgs")) 0 pkgs
    rw [Nat.zero_add] at hstores
    simp only [bind, Except.bind]
    rw [hstores]
    cases getPackagesLoop (jsonObjectGetArrayMember obj "req_pkgs")
      (jsonArrayGetLength (jsonObjectGetArrayMember obj "req_pkgs")) 0 pkgs <;> rfl

/-- **The slots that are stored to**: those of the names, and the second one behind them. -/
theorem packagesStores_slots {n i : ℕ} {stores : List (ℕ × Ptr String)}
    (h : packagesStores array n i = .ok stores) :
    stores.map Prod.fst = List.range' i n ++ [i + n + 1] := by
  induction n generalizing i stores with
  | zero =>
    cases h
    rfl
  | succ n ih =>
    rw [packagesStores] at h
    cases hs : jsonArrayGetStringElement array i with
    | none =>
      rw [hs] at h
      cases h
    | some word =>
      rw [hs] at h
      obtain ⟨rest, hrest, h⟩ := bind_eq_ok.1 h
      cases h
      have hlast : i + 1 + n + 1 = i + (n + 1) + 1 := by omega
      rw [List.map_cons, ih hrest, List.range'_succ, hlast]
      rfl

/-- **An array of names as it should be**, `pkgs.2` being the count it was allocated for: no store
went beyond it, it holds the names in order, and `NULL` behind them. -/
structure NameArray (stores : List (ℕ × Ptr String)) (pkgs : (ℕ → Ptr String) × ℕ)
    (names : List String) : Prop where
  inside : ∀ w ∈ stores, w.1 < pkgs.2 + 1
  filled : ∀ i (hi : i < names.length), pkgs.1 i = .good names[i]
  terminated : pkgs.1 names.length = .null

/-- The names of a document. -/
def reqPkgs (root : JsonObject) : Option JsonArray :=
  jsonObjectGetArrayMember (jsonNodeGetObject (jsonObjectGetMember (some root) "data")) "req_pkgs"

/-- The server makes such an array of the names of a request; `junk` is what was in its memory. -/
def NamesStored (junk : ℕ → Ptr String) (operation : Code) (root : JsonObject) : Prop :=
  ∃ stores pkgs names, Strings (reqPkgs root) names ∧
    ssdsJsRdGetPackagesStores (.ofRoot (some (.obj root))) = .ok stores ∧
    requestPkgs junk operation (.ofRoot (some (.obj root))) = .ok pkgs ∧
    NameArray stores pkgs names

/-- The decoder, on a document whose names are strings. -/
theorem requestPkgs_strings {root : JsonObject} {names : List String}
    (junk : ℕ → Ptr String) {operation : Code} (hop : operation ≠ .getUpdateAll)
    (hnames : Strings (reqPkgs root) names) :
    ∃ stores, ssdsJsRdGetPackagesStores (.ofRoot (some (.obj root))) = .ok stores ∧
      stores.map Prod.fst = List.range names.length ++ [names.length + 1] ∧
      requestPkgs junk operation (.ofRoot (some (.obj root))) =
        .ok (storeAll junk stores, foundLength root) := by
  have hobj := dataObj_root root
  obtain ⟨slots, hslots⟩ := (ssdsJsRdGetPackages_returns_iff hobj junk).2 ⟨names, hnames⟩
  have hstores := hslots
  rw [getPackages_eq_stores] at hstores
  cases hok : ssdsJsRdGetPackagesStores (.ofRoot (some (.obj root))) with
  | error e =>
    rw [hok] at hstores
    cases hstores
  | ok stores =>
    rw [hok] at hstores
    cases hstores
    refine ⟨stores, rfl, ?_, ?_⟩
    · unfold ssdsJsRdGetPackagesStores at hok
      rw [hobj] at hok
      have hwritten := packagesStores_slots hok
      have hlen := (strings_iff.1 hnames).1
      unfold reqPkgs at hlen
      rw [Nat.zero_add, ← List.range_eq_range', ← hlen] at hwritten
      exact hwritten
    · unfold requestPkgs
      rw [if_neg hop, ssdsJsRdGetCount_root]
      exact bind_eq_ok.2 ⟨_, rfl, bind_eq_ok.2 ⟨_, hslots, rfl⟩⟩

/-- A slot no store went to is as it was. -/
theorem storeAll_of_notMem {stores : List (ℕ × Ptr String)} {i : ℕ}
    (h : i ∉ stores.map Prod.fst) (pkgs : ℕ → Ptr String) : storeAll pkgs stores i = pkgs i := by
  unfold storeAll
  induction stores generalizing pkgs with
  | nil => rfl
  | cons w stores ih =>
    rw [List.map_cons, List.mem_cons, not_or] at h
    rw [List.foldl_cons, ih h.2, Function.update_of_ne h.1]

/-- **When the array is as it should be**: a longer array was counted, one the query found
elsewhere under `data`, and the slot behind the last name happened to be `NULL`. -/
theorem namesStored_iff (junk : ℕ → Ptr String) (operation : Code) (root : JsonObject)
    (hop : operation ≠ .getUpdateAll) :
    NamesStored junk operation root ↔ ∃ names, Strings (reqPkgs root) names ∧
      names.length < foundLength root ∧ junk names.length = .null := by
  constructor
  · rintro ⟨stores, pkgs, names, hnames, hok, hpkgs, harray⟩
    obtain ⟨stores', hok', hwritten, hpkgs'⟩ := requestPkgs_strings junk hop hnames
    rw [hok] at hok'
    cases hok'
    rw [hpkgs] at hpkgs'
    cases hpkgs'
    refine ⟨names, hnames, ?_, ?_⟩
    · -- the terminator goes one slot too far, which only another array can have made room for
      have hlast : names.length + 1 ∈ stores.map Prod.fst := by
        rw [hwritten]
        simp
      obtain ⟨w, hw, hslot⟩ := List.mem_map.1 hlast
      have hinside := harray.inside w hw
      simp only at hinside
      omega
    · have hskipped : names.length ∉ stores.map Prod.fst := by
        rw [hwritten]
        simp
      rw [← storeAll_of_notMem hskipped junk]
      exact harray.terminated
  · rintro ⟨names, hnames, hfound, hjunk⟩
    obtain ⟨stores, hok, hwritten, hpkgs⟩ := requestPkgs_strings junk hop hnames
    refine ⟨stores, _, names, hnames, hok, hpkgs, ?_, ?_, ?_⟩
    · intro w hw
      have hslot : w.1 ∈ stores.map Prod.fst := List.mem_map_of_mem hw
      rw [hwritten] at hslot
      simp only [List.mem_append, List.mem_range, List.mem_singleton] at hslot
      simp only
      omega
    · have hslots : ssdsJsRdGetPackages junk (.ofRoot (some (.obj root))) =
          .ok (storeAll junk stores) := by
        rw [getPackages_eq_stores, hok]
        rfl
      exact ssdsJsRdGetPackages_slots (dataObj_root root) hnames hslots
    · have hskipped : names.length ∉ stores.map Prod.fst := by
        rw [hwritten]
        simp
      rw [← hjunk]
      exact storeAll_of_notMem hskipped junk

/-! ## A request for one package -/

/-- A request for `a`; `more` comes before it under `data`. -/
def requestA (more : JsonObject) : JsonObject :=
  [("code", .int 7), ("data", .obj (more ++ [("req_pkgs", .arr [.str "a"])]))]

/-- With two more names in an object before them, and memory that was cleared, the array is as
it should be. -/
theorem namesStored_nested : NamesStored (fun _ => .null) .getInstall
    (requestA [("x", .obj [("req_pkgs", .arr [.str "b", .str "c"])])]) := by
  apply (namesStored_iff _ _ _ (by decide)).2
  exact ⟨["a"], rfl, by decide, rfl⟩

/-- **A store beyond the array**: the terminator of a request for one package. -/
theorem namesStored_fails : ¬ NamesStored (fun _ => .null) .getInstall (requestA []) := by
  rintro ⟨stores, pkgs, names, -, hok, hpkgs, harray⟩
  cases hok
  cases hpkgs
  have hinside : 2 < foundLength (requestA []) + 1 := harray.inside (2, .null) (by simp)
  have hcount : foundLength (requestA []) = 1 := rfl
  omega

end Rds
