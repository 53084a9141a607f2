import Rds.Spec.Server
import Rds.Spec.ClientMain
import Mathlib.Data.List.Forall2

/-!
# Decoding a request

* `ssdsJsRdGetPackages_ok_iff`, `ssdsJsRdRepoInfo_ok_iff`: **when the lists are decoded**, and
  into what. A list that holds anything else crashes the decoder.
* `request_decoded_iff`: the requests whose lists are decoded completely.
* `urlless_repo_crashes`: a request of the client that crashes the server.
-/

namespace Rds

variable {array : Option JsonArray} {n : ℕ}

/-- What a `mapM` that returned has made of each element. -/
theorem mapM_eq_ok_iff {ε α β : Type} {f : α → Except ε β} {l : List α} :
    ∀ {r : List β}, l.mapM f = .ok r ↔ List.Forall₂ (fun a b => f a = .ok b) l r := by
  induction l with
  | nil =>
    intro r
    rw [List.mapM_nil]
    constructor
    · intro h
      cases h
      exact .nil
    · intro h
      cases h
      rfl
  | cons a l ih =>
    intro r
    rw [List.mapM_cons, bind_eq_ok]
    constructor
    · rintro ⟨b, hb, h⟩
      obtain ⟨bs, hbs, h⟩ := bind_eq_ok.1 h
      cases h
      exact .cons hb (ih.1 hbs)
    · intro h
      cases h with
      | cons hb hbs => exact ⟨_, hb, bind_eq_ok.2 ⟨_, ih.2 hbs, rfl⟩⟩

/-! ## Lists of strings -/

/-- **The loop of `ssds_js_rd_get_packages`** fills its slots with the strings of the array, and
returns if they are strings. -/
theorem getPackagesLoop_ok_iff : ∀ {n i : ℕ} {slots slots' : ℕ → Ptr String},
    getPackagesLoop array n i slots = .ok slots' ↔
      (∀ j < n, ∃ s, jsonArrayGetStringElement array (i + j) = some s ∧
        slots' (i + j) = .good s) ∧
      ∀ j, j < i ∨ i + n ≤ j → slots' j = slots j := by
  intro n
  induction n with
  | zero =>
    intro i slots slots'
    constructor
    · intro h
      cases h
      exact ⟨by simp, fun _ _ => rfl⟩
    · rintro ⟨-, h⟩
      have heq : slots' = slots := funext fun j => h j (by omega)
      rw [heq]
      rfl
  | succ n ih =>
    intro i slots slots'
    rw [forall_offset_succ (P := fun j => ∃ s, jsonArrayGetStringElement array j = some s ∧
      slots' j = .good s)]
    cases hs : jsonArrayGetStringElement array i with
    | none =>
      rw [getPackagesLoop, hs]
      simp
    | some s =>
      rw [getPackagesLoop, hs]
      simp only
      rw [ih]
      constructor
      · rintro ⟨hnext, hrest⟩
        have hi : slots' i = .good s := by
          rw [hrest i (by omega)]
          exact Function.update_self i _ slots
        refine ⟨⟨⟨s, rfl, hi⟩, hnext⟩, fun j hj => ?_⟩
        rw [hrest j (by omega), Function.update_of_ne (by omega)]
      · rintro ⟨⟨⟨s', hs', hi⟩, hnext⟩, hrest⟩
        cases hs'
        refine ⟨hnext, fun j hj => ?_⟩
        by_cases hji : j = i
        · rw [hji, hi, Function.update_self]
        · rw [hrest j (by omega), Function.update_of_ne hji]

/-- **The urls of a repository** are copied if they are strings. -/
theorem repoUrlLoop_ok_iff : ∀ {n j : ℕ} {urls : List String},
    repoUrlLoop array n j = .ok urls ↔
      urls.length = n ∧ ∀ k < n, jsonArrayGetStringElement array (j + k) = urls[k]? := by
  intro n
  induction n with
  | zero =>
    intro j urls
    constructor
    · intro h
      cases h
      exact ⟨rfl, by simp⟩
    · rintro ⟨h, -⟩
      rw [List.length_eq_zero_iff.1 h]
      rfl
  | succ n ih =>
    intro j urls
    rw [repoUrlLoop]
    cases hs : jsonArrayGetStringElement array j with
    | none =>
      refine iff_of_false (by simp) ?_
      rintro ⟨hlen, h⟩
      have hzero := h 0 (Nat.succ_pos n)
      rw [Nat.add_zero, hs, eq_comm, List.getElem?_eq_none_iff, hlen] at hzero
      omega
    | some s =>
      simp only
      rw [bind_eq_ok]
      constructor
      · rintro ⟨rest, hrest, h⟩
        cases h
        obtain ⟨hlen, hnext⟩ := ih.1 hrest
        refine ⟨by rw [List.length_cons, hlen], fun k hk => ?_⟩
        cases k with
        | zero => rw [Nat.add_zero, hs, List.getElem?_cons_zero]
        | succ k =>
          rw [List.getElem?_cons_succ, ← hnext k (by omega)]
          congr 1
          omega
      · rintro ⟨hlen, h⟩
        cases urls with
        | nil => cases hlen
        | cons url rest =>
          have hzero := h 0 (Nat.succ_pos n)
          rw [Nat.add_zero, hs, List.getElem?_cons_zero] at hzero
          cases hzero
          refine ⟨rest, ih.2 ⟨by simpa using hlen, fun k hk => ?_⟩, rfl⟩
          have hk' := h (k + 1) (by omega)
          rw [List.getElem?_cons_succ] at hk'
          rw [← hk']
          congr 1
          omega

/-- An array that holds nothing but these strings; a missing one holds none. -/
def Strings (array : Option JsonArray) (names : List String) : Prop :=
  array.getD [] = names.map .str

theorem jsonArrayGetStringElement_eq_some {i : ℕ} {s : String} :
    jsonArrayGetStringElement array i = some s ↔ (array.getD [])[i]? = some (.str s) := by
  unfold jsonArrayGetStringElement jsonArrayGetElement
  cases array with
  | none => simp [jsonNodeGetString]
  | some es =>
    simp only [Option.bind_some, Option.getD_some]
    cases es[i]? with
    | none => simp [jsonNodeGetString]
    | some e => cases e <;> simp [jsonNodeGetString]

theorem strings_iff {names : List String} : Strings array names ↔
    names.length = jsonArrayGetLength array ∧
      ∀ k < jsonArrayGetLength array, jsonArrayGetStringElement array k = names[k]? := by
  unfold Strings jsonArrayGetLength
  constructor
  · intro h
    refine ⟨by rw [h, List.length_map], fun k hk => ?_⟩
    have hlt : k < names.length := by rwa [h, List.length_map] at hk
    rw [List.getElem?_eq_getElem hlt, jsonArrayGetStringElement_eq_some, h, List.getElem?_map,
      List.getElem?_eq_getElem hlt]
    rfl
  · rintro ⟨hlen, h⟩
    apply List.ext_getElem?
    intro k
    by_cases hk : k < (array.getD []).length
    · have hlt : k < names.length := by omega
      have hs := h k hk
      rw [List.getElem?_eq_getElem hlt, jsonArrayGetStringElement_eq_some] at hs
      rw [hs, List.getElem?_map, List.getElem?_eq_getElem hlt]
      rfl
    · rw [List.getElem?_eq_none (by omega), List.getElem?_eq_none (by rw [List.length_map]; omega)]

theorem exists_strings_iff : (∃ names, Strings array names) ↔
    ∀ k < jsonArrayGetLength array, ∃ s, jsonArrayGetStringElement array k = some s := by
  constructor
  · rintro ⟨names, h⟩ k hk
    obtain ⟨hlen, h⟩ := strings_iff.1 h
    exact ⟨names[k], by rw [h k hk, List.getElem?_eq_getElem (by omega)]⟩
  · intro h
    refine ⟨(array.getD []).map fun e => (jsonNodeGetString (some e)).getD "", ?_⟩
    unfold Strings
    rw [List.map_map]
    conv_lhs => rw [← List.map_id (array.getD [])]
    refine List.map_congr_left fun e he => ?_
    obtain ⟨k, hk, rfl⟩ := List.getElem_of_mem he
    obtain ⟨s, hs⟩ := h k hk
    rw [jsonArrayGetStringElement_eq_some, List.getElem?_eq_getElem hk] at hs
    rw [Option.some.inj hs]
    rfl

/-! ## The lists of a request -/

/-- A loop over strings returns. -/
theorem getPackagesLoop_returns_iff {i : ℕ} (slots : ℕ → Ptr String) :
    (∃ slots', getPackagesLoop array n i slots = .ok slots') ↔
      ∀ j < n, ∃ s, jsonArrayGetStringElement array (i + j) = some s := by
  constructor
  · rintro ⟨slots', h⟩ j hj
    obtain ⟨s, hs, -⟩ := (getPackagesLoop_ok_iff.1 h).1 j hj
    exact ⟨s, hs⟩
  · intro h
    refine ⟨fun j => if i ≤ j ∧ j < i + n then .of (jsonArrayGetStringElement array j) else slots j,
      getPackagesLoop_ok_iff.2 ⟨fun j hj => ?_, fun j hj => ?_⟩⟩
    · obtain ⟨s, hs⟩ := h j hj
      refine ⟨s, hs, ?_⟩
      rw [if_pos (by omega), hs]
      rfl
    · rw [if_neg (by omega)]

variable {json : SsdsJsonRead} {obj : Option JsonObject}

/-- **The packages** are decoded if they are strings. -/
theorem ssdsJsRdGetPackages_returns_iff (hobj : json.dataObj.get = .ok obj)
    (slots : ℕ → Ptr String) : (∃ slots', ssdsJsRdGetPackages slots json = .ok slots') ↔
      ∃ names, Strings (jsonObjectGetArrayMember obj "req_pkgs") names := by
  have hloop : (∃ slots', getPackagesLoop (jsonObjectGetArrayMember obj "req_pkgs")
      (jsonArrayGetLength (jsonObjectGetArrayMember obj "req_pkgs")) 0 slots = .ok slots') ↔ _ :=
    getPackagesLoop_returns_iff slots
  simp only [Nat.zero_add] at hloop
  rw [exists_strings_iff, ← hloop]
  unfold ssdsJsRdGetPackages
  constructor
  · rintro ⟨slots', h⟩
    obtain ⟨o, ho, h⟩ := bind_eq_ok.1 h
    rw [hobj] at ho
    cases ho
    obtain ⟨filled, hfilled, -⟩ := bind_eq_ok.1 h
    exact ⟨filled, hfilled⟩
  · rintro ⟨filled, hfilled⟩
    exact ⟨_, bind_eq_ok.2 ⟨obj, hobj, bind_eq_ok.2 ⟨filled, hfilled, rfl⟩⟩⟩

/-- Each goes to the slot of its number. -/
theorem ssdsJsRdGetPackages_slots (hobj : json.dataObj.get = .ok obj)
    {slots slots' : ℕ → Ptr String} {names : List String}
    (hnames : Strings (jsonObjectGetArrayMember obj "req_pkgs") names)
    (h : ssdsJsRdGetPackages slots json = .ok slots') :
    ∀ i (hi : i < names.length), slots' i = .good names[i] := by
  intro i hi
  obtain ⟨hlen, hget⟩ := strings_iff.1 hnames
  unfold ssdsJsRdGetPackages at h
  obtain ⟨o, ho, h⟩ := bind_eq_ok.1 h
  rw [hobj] at ho
  cases ho
  obtain ⟨filled, hfilled, h⟩ := bind_eq_ok.1 h
  cases h
  obtain ⟨s, hs, hslot⟩ := (getPackagesLoop_ok_iff.1 hfilled).1 i (by omega)
  rw [Nat.zero_add] at hs hslot
  have hname := hget i (by omega)
  rw [hs, List.getElem?_eq_getElem hi, Option.some.injEq] at hname
  -- the terminator is behind the last name
  rw [Function.update_of_ne (by omega), hslot, hname]

/-- What is read of one repository. -/
structure RepoRead (obj : Option JsonObject) (info : SsdsRepoInfo) : Prop where
  name : jsonObjectGetStringMember obj "name" = some info.name
  type : info.type = toInt (jsonObjectGetIntMember obj "type")
  urls : Strings (jsonObjectGetArrayMember obj "repo_url") info.urls

theorem repoInfoAt_ok_iff {i : ℕ} {info : SsdsRepoInfo} :
    repoInfoAt array i = .ok info ↔ RepoRead (jsonArrayGetObjectElement array i) info := by
  unfold repoInfoAt
  simp only
  cases hname : jsonObjectGetStringMember (jsonArrayGetObjectElement array i) "name" with
  | none =>
    refine iff_of_false (by simp) fun h => ?_
    have hread := h.name
    rw [hname] at hread
    cases hread
  | some name =>
    simp only
    rw [bind_eq_ok]
    constructor
    · rintro ⟨urls, hurls, h⟩
      cases h
      refine ⟨hname, rfl, strings_iff.2 ?_⟩
      simpa using repoUrlLoop_ok_iff.1 hurls
    · intro h
      have hread := h.name
      rw [hname] at hread
      refine ⟨info.urls, repoUrlLoop_ok_iff.2 (by simpa using strings_iff.1 h.urls), ?_⟩
      rw [Option.some.inj hread, ← h.type]
      rfl

theorem jsonArrayGetObjectElement_eq {i : ℕ} (hi : i < (array.getD []).length) :
    jsonArrayGetObjectElement array i = jsonNodeGetObject (some (array.getD [])[i]) := by
  cases array with
  | none => cases hi
  | some es =>
    have hget : es[i]? = some es[i] := List.getElem?_eq_getElem hi
    simp [jsonArrayGetObjectElement, jsonArrayGetElement, hget]

/-- **The repositories** are decoded each on its own. -/
theorem ssdsJsRdRepoInfo_ok_iff (hobj : json.dataObj.get = .ok obj) {infos : List SsdsRepoInfo} :
    ssdsJsRdRepoInfo json = .ok infos ↔
      List.Forall₂ (fun e info => RepoRead (jsonNodeGetObject (some e)) info)
        ((jsonObjectGetArrayMember obj "repolist").getD []) infos := by
  unfold ssdsJsRdRepoInfo
  rw [hobj]
  simp only [bind, Except.bind, jsonArrayGetLength]
  rw [mapM_eq_ok_iff, List.forall₂_iff_get, List.forall₂_iff_get]
  simp only [List.get_eq_getElem, List.getElem_range, List.length_range, repoInfoAt_ok_iff]
  refine and_congr_right fun _ => forall_congr' fun i => forall_congr' fun hi => ?_
  rw [jsonArrayGetObjectElement_eq hi]

/-! ## The decoder -/

/-- **Complete lists**: all names of the request in their slots, and one entry for each repository,
with its name and all its urls. -/
structure CompleteLists (operation : Code) (data : Option JsonObject)
    (pkgs : (ℕ → Ptr String) × ℕ) (infos : List SsdsRepoInfo) : Prop where
  pkgs : operation ≠ .getUpdateAll → ∃ names,
    Strings (jsonObjectGetArrayMember data "req_pkgs") names ∧ pkgs.2 = names.length ∧
      ∀ i (hi : i < names.length), pkgs.1 i = .good names[i]
  repos : List.Forall₂ (fun e info => RepoRead (jsonNodeGetObject (some e)) info)
    ((jsonObjectGetArrayMember data "repolist").getD []) infos

/-- The server's decoding of a request returns, with complete lists. -/
def DecodedCompletely (junk : ℕ → Ptr String) (operation : Code) (root : JsonObject) : Prop :=
  ∃ pkgs infos, requestPkgs junk operation (.ofRoot (some (.obj root))) = .ok pkgs ∧
    ssdsJsRdRepoInfo (.ofRoot (some (.obj root))) = .ok infos ∧
    CompleteLists operation (jsonNodeGetObject (jsonObjectGetMember (some root) "data")) pkgs infos

/-- The length of the first node called `req_pkgs` that the path `$.data..req_pkgs` finds. -/
def foundLength (root : JsonObject) : ℕ :=
  jsonArrayGetLength (jsonArrayGetArrayElement (jsonPathMatchData "req_pkgs" (some (.obj root))) 0)

/-- **Well-formed lists**: the packages are strings, and the path finds them and no others
first; every repository has a name, and its urls are strings. -/
structure WellFormedLists (operation : Code) (root : JsonObject) (data : Option JsonObject) :
    Prop where
  pkgs : operation ≠ .getUpdateAll →
    (∃ names, Strings (jsonObjectGetArrayMember data "req_pkgs") names) ∧
      foundLength root = jsonArrayGetLength (jsonObjectGetArrayMember data "req_pkgs")
  repos : ∀ e ∈ (jsonObjectGetArrayMember data "repolist").getD [],
    (∃ name, jsonObjectGetStringMember (jsonNodeGetObject (some e)) "name" = some name) ∧
      ∃ urls, Strings (jsonObjectGetArrayMember (jsonNodeGetObject (some e)) "repo_url") urls

theorem ssdsJsRdGetCount_root (root : JsonObject) :
    ssdsJsRdGetCount (.ofRoot (some (.obj root))) "req_pkgs" = .ok (foundLength root) := rfl

theorem dataObj_root (root : JsonObject) :
    (SsdsJsonRead.ofRoot (some (.obj root))).dataObj.get =
      .ok (jsonNodeGetObject (jsonObjectGetMember (some root) "data")) :=
  Ptr.get_of _

/-- What is read of a repository exists if its name and its urls are strings. -/
theorem exists_repoRead_iff {obj : Option JsonObject} : (∃ info, RepoRead obj info) ↔
    (∃ name, jsonObjectGetStringMember obj "name" = some name) ∧
      ∃ urls, Strings (jsonObjectGetArrayMember obj "repo_url") urls := by
  constructor
  · rintro ⟨info, h⟩
    exact ⟨⟨_, h.name⟩, _, h.urls⟩
  · rintro ⟨⟨name, hname⟩, urls, hurls⟩
    exact ⟨⟨urls, name, _⟩, hname, rfl, hurls⟩

theorem exists_forall₂_iff {α β : Type} {R : α → β → Prop} {l : List α} :
    (∃ r, List.Forall₂ R l r) ↔ ∀ a ∈ l, ∃ b, R a b := by
  induction l with
  | nil => exact ⟨fun _ => by simp, fun _ => ⟨[], .nil⟩⟩
  | cons a l ih =>
    rw [List.forall_mem_cons, ← ih]
    constructor
    · rintro ⟨r, hr⟩
      cases hr with
      | cons hb hbs => exact ⟨⟨_, hb⟩, _, hbs⟩
    · rintro ⟨⟨b, hb⟩, bs, hbs⟩
      exact ⟨b :: bs, .cons hb hbs⟩

/-- **Requests that are decoded completely**: exactly those with well-formed lists. All others
crash the server or leave it with slots that were never filled; none is refused. -/
theorem request_decoded_iff (junk : ℕ → Ptr String) (operation : Code) (root : JsonObject) :
    DecodedCompletely junk operation root ↔ WellFormedLists operation root
      (jsonNodeGetObject (jsonObjectGetMember (some root) "data")) := by
  have hobj := dataObj_root root
  constructor
  · rintro ⟨pkgs, infos, hpkgs, -, hall⟩
    refine ⟨fun hop => ?_, fun e he => exists_repoRead_iff.1 (exists_forall₂_iff.1 ⟨_, hall.repos⟩ e he)⟩
    obtain ⟨names, hnames, hlen, -⟩ := hall.pkgs hop
    refine ⟨⟨names, hnames⟩, ?_⟩
    rw [← (strings_iff.1 hnames).1, ← hlen]
    unfold requestPkgs at hpkgs
    rw [if_neg hop, ssdsJsRdGetCount_root] at hpkgs
    obtain ⟨count, hcount, hpkgs⟩ := bind_eq_ok.1 hpkgs
    obtain ⟨slots, -, hpkgs⟩ := bind_eq_ok.1 hpkgs
    cases hpkgs
    exact Except.ok.inj hcount
  · intro h
    obtain ⟨infos, hinfos⟩ := exists_forall₂_iff.2 fun e he => exists_repoRead_iff.2 (h.repos e he)
    have hrepos := (ssdsJsRdRepoInfo_ok_iff hobj).2 hinfos
    by_cases hop : operation = .getUpdateAll
    · subst hop
      exact ⟨_, infos, rfl, hrepos, fun hne => absurd rfl hne, hinfos⟩
    · obtain ⟨⟨names, hnames⟩, hfound⟩ := h.pkgs hop
      obtain ⟨slots, hslots⟩ := (ssdsJsRdGetPackages_returns_iff hobj junk).2 ⟨names, hnames⟩
      refine ⟨(slots, foundLength root), infos, ?_, hrepos, fun _ => ⟨names, hnames, ?_, ?_⟩, hinfos⟩
      · unfold requestPkgs
        rw [if_neg hop, ssdsJsRdGetCount_root]
        exact bind_eq_ok.2 ⟨_, rfl, bind_eq_ok.2 ⟨slots, hslots, rfl⟩⟩
      · rw [(strings_iff.1 hnames).1]
        exact hfound
      · exact ssdsJsRdGetPackages_slots hobj hnames hslots

/-- **A request of the client that crashes the server**: it lists a repository that has no url. -/
theorem urlless_repo_crashes : ∃ json root,
    repoMessage [⟨[], some "r", 0⟩] ["a"] .getInstall = .ok json ∧
      ssdsJsCrToString json = .obj root ∧
      ssdsJsRdRepoInfo (.ofRoot (some (.obj root))) = .error .crash ∧
      ∀ junk, ¬ DecodedCompletely junk .getInstall root := by
  refine ⟨_, _, rfl, rfl, rfl, ?_⟩
  rintro junk ⟨pkgs, infos, -, h, -⟩
  cases h

end Rds
